import Axp.JobLife

/-!
# Cancellation signals

A task takes its cancellation branch when its channel is ready, and the
channel is ready when a signal was sent or when its sender is gone. That the
second never looks like the first is an invariant of the whole run (`Armed`):
until the last step of `finish_job` the sender of a job is in the table, or it
has been taken out by a call that sent the signal and reported success. So a
task that finds its channel ready has been cancelled, and a job is reported
cancelled at most once, because a sender can be taken out once.
-/

namespace Axp

open Lts Directory

/-! ## Reports of success -/

namespace Observed

/-- How often a cancellation of the job was reported successful. -/
def reports (self : Observed) (id : JobId) : Nat :=
  self.cancels.countP (fun r => r.ok && r.jobId = id) + self.counted.countP (·.jobId = id)

theorem reports_eq (self : Observed) (id : JobId) :
    (self.successes.filter (·.2 = id)).length = self.reports id := by
  rw [successes, reports, List.filter_append, List.length_append, ← List.countP_eq_length_filter,
    ← List.countP_eq_length_filter, List.countP_map, List.countP_map, List.countP_filter]
  congr 1
  refine List.countP_congr fun r _ => ?_
  simp [and_comm]

/-- The answer of a `cancel` is one report, if it is `ok: true`. -/
theorem reports_cancels (self : Observed) (r : CancelReport) (id : JobId) :
    ({ self with cancels := self.cancels ++ [r] } : Observed).reports id
      = self.reports id + if r.ok = true ∧ r.jobId = id then 1 else 0 := by
  simp only [reports, List.countP_append, List.countP_singleton, Bool.and_eq_true,
    decide_eq_true_eq]
  omega

theorem reports_counted (self : Observed) (r : CountReport) (id : JobId) :
    ({ self with counted := self.counted ++ [r] } : Observed).reports id
      = self.reports id + if r.jobId = id then 1 else 0 := by
  simp only [reports, List.countP_append, List.countP_singleton, decide_eq_true_eq]
  omega

theorem mem_successes {self : Observed} {x : SessionId × JobId} :
    x ∈ self.successes ↔ (∃ r ∈ self.cancels, r.ok = true ∧ (r.sessionId, r.jobId) = x)
      ∨ ∃ r ∈ self.counted, (r.sessionId, r.jobId) = x := by
  simp [successes, and_assoc]

theorem signalled_iff {self : Observed} {id : JobId} :
    self.signalled id = true ↔ self.reports id ≠ 0 := by
  rw [← reports_eq, signalled, List.any_eq_true, Nat.ne_zero_iff_zero_lt,
    List.length_pos_iff_exists_mem]
  simp [List.mem_filter]

end Observed

/-! ## Where the sender of a job is -/

/-- The cancellation entry has been registered. -/
def LifePc.registered : LifePc → Bool
  | .registering => false
  | _ => true

/-- `finish_job` has returned. -/
def LifePc.isErased : LifePc → Bool
  | .erased _ => true
  | _ => false

/-- The sender of a job: not made yet, in the table, gone with its signal
sent, or dropped when the job was over. -/
inductive Armed (s : Server) (id : JobId) (life : Life) : Prop
  | unregistered : life.pc.registered = false → life.rx = none → s.senders.lookup id = none →
      s.observed.reports id = 0 → Armed s id life
  | held (ch : Nat) : life.pc.registered = true → life.pc.isErased = false → life.rx = some ch →
      s.senders.lookup id = some ch → ch ∉ s.sent → s.observed.reports id = 0 → Armed s id life
  | signalled (ch : Nat) : life.pc.registered = true → life.rx = some ch →
      s.senders.lookup id = none → ch ∈ s.sent → s.observed.reports id = 1 → Armed s id life
  | dropped (ch : Nat) : life.pc.isErased = true → life.rx = some ch →
      s.senders.lookup id = none → ch ∉ s.sent → s.observed.reports id = 0 → Armed s id life

/-- The table of senders is the cancellation table, and every job has a
channel of its own. -/
structure SignalInv (s : Server) : Prop where
  table : ∀ id, s.engine.cancels.lookup id = none ↔ s.senders.lookup id = none
  armed : ∀ id life, s.lives.lookup id = some life → Armed s id life
  idle : ∀ id, s.lives.lookup id = none →
    s.senders.lookup id = none ∧ s.observed.reports id = 0
  apart : ∀ id id' life life' ch, s.lives.lookup id = some life →
    s.lives.lookup id' = some life' → life.rx = some ch → life'.rx = some ch → id = id'
  bound : ∀ id life ch, s.lives.lookup id = some life → life.rx = some ch → ch < s.channels
  sent : ∀ ch ∈ s.sent, ch < s.channels
  branches : ∀ id ∈ s.observed.branches, s.observed.reports id ≠ 0

namespace SignalInv

variable {s s' : Server} {l : ServerLabel} {display : Error → String} {id : JobId}
  {life life' : Life}

theorem init (h : (serverSystem display).init s) : SignalInv s := by
  obtain ⟨-, -, -, hcancels, -, -, -, -, hlives, hsenders, -, hsent, -, hobserved⟩ := h
  have hlife : ∀ id life, s.lives.lookup id ≠ some life := by
    intro id life hlife
    rw [hlives] at hlife
    cases hlife
  refine ⟨?_, ?_, ?_, ?_, ?_, ?_, ?_⟩
  · intro id
    rw [hcancels, hsenders]
    exact iff_of_true rfl rfl
  · exact fun id life h => absurd h (hlife id life)
  · intro id _
    rw [hsenders, hobserved]
    exact ⟨rfl, rfl⟩
  · exact fun id id' life life' ch h => absurd h (hlife id life)
  · exact fun id life ch h => absurd h (hlife id life)
  · intro ch hmem
    rw [hsent] at hmem
    cases hmem
  · intro id hmem
    rw [hobserved] at hmem
    cases hmem

/-- A task at work whose channel is ready has been signalled. -/
theorem ready (h : SignalInv s) (hlife : s.lives.lookup id = some life)
    (herased : life.pc.isErased = false) (hready : s.ready life.rx = true) :
    s.observed.reports id ≠ 0 := by
  cases h.armed id life hlife with
  | unregistered hpc hrx hsender hreports =>
      rw [hrx] at hready
      cases hready
  | held ch hpc herased' hrx hsender hsent hreports =>
      -- Its sender is still in the table, and has not sent.
      have hmem : (⟨id, ch⟩ : Sigma fun _ : JobId => Nat) ∈ s.senders.entries :=
        AList.mem_lookup_iff.mp hsender
      have hheld : (s.senders.entries.any fun x => x.2 = ch) = true :=
        List.any_eq_true.mpr ⟨⟨id, ch⟩, hmem, decide_eq_true rfl⟩
      rw [hrx] at hready
      simp [Server.ready, hsent, hheld] at hready
  | signalled ch hpc hrx hsender hsent hreports =>
      rw [hreports]
      exact one_ne_zero
  | dropped ch hpc hrx hsender hsent hreports =>
      rw [herased] at hpc
      cases hpc

/-! ### Preservation -/

/-- The sender of a job is where it was, as long as the tables and the reports
say the same of it. -/
theorem armed_same (h : Armed s id life) (hsenders : s'.senders.lookup id = s.senders.lookup id)
    (hsent : ∀ ch, life.rx = some ch → (ch ∈ s'.sent ↔ ch ∈ s.sent))
    (hreports : s'.observed.reports id = s.observed.reports id) (hrx : life'.rx = life.rx)
    (hregistered : life'.pc.registered = life.pc.registered)
    (herased : life'.pc.isErased = life.pc.isErased) : Armed s' id life' := by
  cases h with
  | unregistered hpc hnone hsender hzero =>
      exact .unregistered (hregistered.trans hpc) (hrx.trans hnone) (hsenders.trans hsender)
        (hreports.trans hzero)
  | held ch hpc hpc' hsome hsender hnot hzero =>
      exact .held ch (hregistered.trans hpc) (herased.trans hpc') (hrx.trans hsome)
        (hsenders.trans hsender) ((hsent ch hsome).not.mpr hnot) (hreports.trans hzero)
  | signalled ch hpc hsome hsender hmem hone =>
      exact .signalled ch (hregistered.trans hpc) (hrx.trans hsome) (hsenders.trans hsender)
        ((hsent ch hsome).mpr hmem) (hreports.trans hone)
  | dropped ch hpc hsome hsender hnot hzero =>
      exact .dropped ch (herased.trans hpc) (hrx.trans hsome) (hsenders.trans hsender)
        ((hsent ch hsome).not.mpr hnot) (hreports.trans hzero)

/-- The steps that cancel nothing and leave the lives alone. -/
theorem same (h : SignalInv s) (hcancels : s'.engine.cancels = s.engine.cancels)
    (hsenders : s'.senders = s.senders) (hsent : s'.sent = s.sent)
    (hchannels : s'.channels = s.channels) (hlives : s'.lives = s.lives)
    (hreports : ∀ id, s'.observed.reports id = s.observed.reports id)
    (hbranches : s'.observed.branches = s.observed.branches) : SignalInv s' := by
  refine ⟨?_, ?_, ?_, ?_, ?_, ?_, ?_⟩
  · rw [hcancels, hsenders]
    exact h.table
  · intro id life hlife
    rw [hlives] at hlife
    exact armed_same (h.armed id life hlife) (by rw [hsenders]) (fun ch _ => by rw [hsent])
      (hreports id) rfl rfl rfl
  · intro id hnone
    rw [hlives] at hnone
    rw [hsenders, hreports]
    exact h.idle id hnone
  · rw [hlives]
    exact h.apart
  · rw [hlives, hchannels]
    exact h.bound
  · rw [hsent, hchannels]
    exact h.sent
  · intro id hmem
    rw [hbranches] at hmem
    rw [hreports]
    exact h.branches id hmem

/-- The steps of a life between its registration and its end. -/
theorem move (h : SignalInv s) (hlife : s.lives.lookup id = some life)
    (hcancels : s'.engine.cancels = s.engine.cancels) (hsenders : s'.senders = s.senders)
    (hsent : s'.sent = s.sent) (hchannels : s'.channels = s.channels)
    (hlives : s'.lives = s.lives.insert id life')
    (hreports : ∀ id, s'.observed.reports id = s.observed.reports id)
    (hbranches : ∀ id' ∈ s'.observed.branches, id' ∈ s.observed.branches
      ∨ s.observed.reports id' ≠ 0)
    (hrx : life'.rx = life.rx) (hregistered : life'.pc.registered = life.pc.registered)
    (herased : life'.pc.isErased = life.pc.isErased) : SignalInv s' := by
  have hold : ∀ id' other, s'.lives.lookup id' = some other →
      ∃ old, s.lives.lookup id' = some old ∧ other.rx = old.rx
        ∧ other.pc.registered = old.pc.registered ∧ other.pc.isErased = old.pc.isErased := by
    intro id' other hother
    rw [hlives] at hother
    rcases lookup_insert_iff.mp hother with ⟨rfl, rfl⟩ | ⟨-, hsame⟩
    · exact ⟨life, hlife, hrx, hregistered, herased⟩
    · exact ⟨other, hsame, rfl, rfl, rfl⟩
  refine ⟨?_, ?_, ?_, ?_, ?_, ?_, ?_⟩
  · rw [hcancels, hsenders]
    exact h.table
  · intro id' other hother
    obtain ⟨old, hget, hrx', hreg, her⟩ := hold id' other hother
    exact armed_same (h.armed id' old hget) (by rw [hsenders]) (fun ch _ => by rw [hsent])
      (hreports id') hrx' hreg her
  · intro id' hnone
    rw [hlives] at hnone
    rw [hsenders, hreports]
    by_cases hid : id' = id
    · rw [hid, AList.lookup_insert] at hnone
      cases hnone
    · rw [AList.lookup_insert_ne hid] at hnone
      exact h.idle id' hnone
  · intro id₁ id₂ life₁ life₂ ch h₁ h₂ hch₁ hch₂
    obtain ⟨old₁, hget₁, hrx₁, -⟩ := hold id₁ life₁ h₁
    obtain ⟨old₂, hget₂, hrx₂, -⟩ := hold id₂ life₂ h₂
    exact h.apart id₁ id₂ old₁ old₂ ch hget₁ hget₂ (hrx₁ ▸ hch₁) (hrx₂ ▸ hch₂)
  · intro id' other ch hother hch
    obtain ⟨old, hget, hrx', -⟩ := hold id' other hother
    rw [hchannels]
    exact h.bound id' old ch hget (hrx' ▸ hch)
  · rw [hsent, hchannels]
    exact h.sent
  · intro id' hmem
    rw [hreports]
    exact (hbranches id' hmem).elim (h.branches id') fun hne => hne

/-- A new job, which nobody can have cancelled. -/
theorem insert (h : SignalInv s) (hnone : s.lives.lookup id = none)
    (hpc : life.pc.registered = false) (hrx : life.rx = none)
    (hcancels : s'.engine.cancels = s.engine.cancels) (hsenders : s'.senders = s.senders)
    (hsent : s'.sent = s.sent) (hchannels : s'.channels = s.channels)
    (hlives : s'.lives = s.lives.insert id life) (hobserved : s'.observed = s.observed) :
    SignalInv s' := by
  have hold : ∀ id' other ch, s'.lives.lookup id' = some other → other.rx = some ch →
      s.lives.lookup id' = some other := by
    intro id' other ch hother hch
    rw [hlives] at hother
    rcases lookup_insert_iff.mp hother with ⟨-, rfl⟩ | ⟨-, hsame⟩
    · rw [hrx] at hch
      cases hch
    · exact hsame
  refine ⟨?_, ?_, ?_, ?_, ?_, ?_, ?_⟩
  · rw [hcancels, hsenders]
    exact h.table
  · intro id' other hother
    rw [hlives] at hother
    rcases lookup_insert_iff.mp hother with ⟨rfl, rfl⟩ | ⟨-, hsame⟩
    · obtain ⟨hsender, hzero⟩ := h.idle id' hnone
      exact .unregistered hpc hrx (by rw [hsenders]; exact hsender)
        (by rw [hobserved]; exact hzero)
    · exact armed_same (h.armed id' other hsame) (by rw [hsenders]) (fun ch _ => by rw [hsent])
        (by rw [hobserved]) rfl rfl rfl
  · intro id' hnone'
    rw [hlives] at hnone'
    rw [hsenders, hobserved]
    by_cases hid : id' = id
    · rw [hid]
      exact h.idle id hnone
    · rw [AList.lookup_insert_ne hid] at hnone'
      exact h.idle id' hnone'
  · intro id₁ id₂ life₁ life₂ ch h₁ h₂ hch₁ hch₂
    exact h.apart id₁ id₂ life₁ life₂ ch (hold _ _ ch h₁ hch₁) (hold _ _ ch h₂ hch₂) hch₁ hch₂
  · intro id' other ch hother hch
    rw [hchannels]
    exact h.bound id' other ch (hold id' other ch hother hch) hch
  · rw [hsent, hchannels]
    exact h.sent
  · rw [hobserved]
    exact h.branches

/-- The registration of a job makes its channel. -/
theorem register (h : SignalInv s) (hlife : s.lives.lookup id = some life)
    (hpc : life.pc = .registering) (entry : CancelEntry)
    (hcancels : s'.engine.cancels = s.engine.cancels.insert id entry)
    (hsenders : s'.senders = s.senders.insert id s.channels) (hsent : s'.sent = s.sent)
    (hchannels : s'.channels = s.channels + 1)
    (hlives : s'.lives
      = s.lives.insert id { life with rx := some s.channels, pc := .startAuditing })
    (hobserved : s'.observed = s.observed) : SignalInv s' := by
  have hzero : s.observed.reports id = 0 := by
    cases h.armed id life hlife with
    | unregistered _ _ _ hzero => exact hzero
    | held ch hpc' => rw [hpc] at hpc'; cases hpc'
    | signalled ch hpc' => rw [hpc] at hpc'; cases hpc'
    | dropped ch hpc' => rw [hpc] at hpc'; cases hpc'
  -- Channels are numbered in the order they are made.
  have hfresh : s.channels ∉ s.sent := fun hmem => Nat.lt_irrefl _ (h.sent _ hmem)
  have hcase : ∀ id' other ch, s'.lives.lookup id' = some other → other.rx = some ch →
      id' = id ∧ ch = s.channels
        ∨ id' ≠ id ∧ s.lives.lookup id' = some other ∧ ch < s.channels := by
    intro id' other ch hother hch
    rw [hlives] at hother
    rcases lookup_insert_iff.mp hother with ⟨hid, rfl⟩ | ⟨hne, hsame⟩
    · exact Or.inl ⟨hid, (Option.some.inj hch).symm⟩
    · exact Or.inr ⟨hne, hsame, h.bound id' other ch hsame hch⟩
  refine ⟨?_, ?_, ?_, ?_, ?_, ?_, ?_⟩
  · intro id'
    rw [hcancels, hsenders]
    by_cases hid : id' = id
    · rw [hid, AList.lookup_insert, AList.lookup_insert]
      exact iff_of_false (Option.some_ne_none _) (Option.some_ne_none _)
    · rw [AList.lookup_insert_ne hid, AList.lookup_insert_ne hid]
      exact h.table id'
  · intro id' other hother
    rw [hlives] at hother
    rcases lookup_insert_iff.mp hother with ⟨rfl, rfl⟩ | ⟨hne, hsame⟩
    · refine .held s.channels rfl rfl rfl ?_ (by rw [hsent]; exact hfresh)
        (by rw [hobserved]; exact hzero)
      rw [hsenders]
      exact AList.lookup_insert _
    · exact armed_same (h.armed id' other hsame)
        (by rw [hsenders]; exact AList.lookup_insert_ne hne) (fun ch _ => by rw [hsent])
        (by rw [hobserved]) rfl rfl rfl
  · intro id' hnone
    rw [hlives] at hnone
    by_cases hid : id' = id
    · rw [hid, AList.lookup_insert] at hnone
      cases hnone
    · rw [AList.lookup_insert_ne hid] at hnone
      rw [hsenders, hobserved, AList.lookup_insert_ne hid]
      exact h.idle id' hnone
  · intro id₁ id₂ life₁ life₂ ch h₁ h₂ hch₁ hch₂
    rcases hcase id₁ life₁ ch h₁ hch₁ with ⟨rfl, hch⟩ | ⟨-, hget₁, hlt⟩
    · rcases hcase id₂ life₂ ch h₂ hch₂ with ⟨hid, -⟩ | ⟨-, -, hlt⟩
      · exact hid.symm
      · exact absurd hch (Nat.ne_of_lt hlt)
    · rcases hcase id₂ life₂ ch h₂ hch₂ with ⟨-, hch⟩ | ⟨-, hget₂, -⟩
      · exact absurd hch (Nat.ne_of_lt hlt)
      · exact h.apart id₁ id₂ life₁ life₂ ch hget₁ hget₂ hch₁ hch₂
  · intro id' other ch hother hch
    rw [hchannels]
    rcases hcase id' other ch hother hch with ⟨-, rfl⟩ | ⟨-, -, hlt⟩
    · exact Nat.lt_succ_self _
    · exact hlt.trans (Nat.lt_succ_self _)
  · intro ch hmem
    rw [hsent] at hmem
    rw [hchannels]
    exact (h.sent ch hmem).trans (Nat.lt_succ_self _)
  · rw [hobserved]
    exact h.branches

/-- The entry of a job and its sender go together. -/
theorem table_erase (h : SignalInv s) (hcancels : s'.engine.cancels = s.engine.cancels.erase id)
    (hsenders : s'.senders = s.senders.erase id) (id' : JobId) :
    s'.engine.cancels.lookup id' = none ↔ s'.senders.lookup id' = none := by
  rw [hcancels, hsenders]
  by_cases hid : id' = id
  · rw [hid]
    exact iff_of_true (AList.lookup_erase _ _) (AList.lookup_erase _ _)
  · rw [AList.lookup_erase_ne hid, AList.lookup_erase_ne hid]
    exact h.table id'

/-- A call that finds the entry of a job: one signal, one report. -/
theorem kill (h : SignalInv s) (hentry : s.engine.cancels.lookup id ≠ none)
    (hcancels : s'.engine.cancels = s.engine.cancels.erase id)
    (hsenders : s'.senders = s.senders.erase id)
    (hsent : s'.sent = s.sent ++ (s.senders.lookup id).toList)
    (hchannels : s'.channels = s.channels) (hlives : s'.lives = s.lives)
    (hreports : ∀ id', s'.observed.reports id' = s.observed.reports id' + if id = id' then 1 else 0)
    (hbranches : s'.observed.branches = s.observed.branches) : SignalInv s' := by
  have hsome : s.senders.lookup id ≠ none := (h.table id).not.mp hentry
  obtain ⟨life, hlife⟩ : ∃ life, s.lives.lookup id = some life := by
    cases hlife : s.lives.lookup id with
    | none => exact absurd (h.idle id hlife).1 hsome
    | some life => exact ⟨life, rfl⟩
  obtain ⟨ch, hregistered, hrx, hsender, hzero⟩ : ∃ ch, life.pc.registered = true
      ∧ life.rx = some ch ∧ s.senders.lookup id = some ch ∧ s.observed.reports id = 0 := by
    cases h.armed id life hlife with
    | unregistered _ _ hnone _ => exact absurd hnone hsome
    | held ch hreg _ hrx hsender _ hzero => exact ⟨ch, hreg, hrx, hsender, hzero⟩
    | signalled _ _ _ hnone => exact absurd hnone hsome
    | dropped _ _ _ hnone => exact absurd hnone hsome
  rw [hsender, Option.toList_some] at hsent
  have hother : ∀ id', id' ≠ id → s'.senders.lookup id' = s.senders.lookup id'
      ∧ s'.observed.reports id' = s.observed.reports id' := by
    intro id' hne
    rw [hsenders, hreports, if_neg hne.symm]
    exact ⟨AList.lookup_erase_ne hne, rfl⟩
  refine ⟨h.table_erase hcancels hsenders, ?_, ?_, ?_, ?_, ?_, ?_⟩
  · intro id' other hget
    rw [hlives] at hget
    by_cases hid : id' = id
    · rw [hid] at hget ⊢
      obtain rfl := Option.some.inj (hlife.symm.trans hget)
      refine .signalled ch hregistered hrx ?_ ?_ ?_
      · rw [hsenders]
        exact AList.lookup_erase _ _
      · rw [hsent]
        exact List.mem_append_right _ (List.mem_singleton_self _)
      · rw [hreports, if_pos rfl, hzero]
    · obtain ⟨hs, hr⟩ := hother id' hid
      refine armed_same (h.armed id' other hget) hs (fun ch' hch' => ?_) hr rfl rfl rfl
      -- The channel that carries the signal now is not this one.
      have hne : ch' ≠ ch := by
        rintro rfl
        exact hid (h.apart id' id other life ch' hget hlife hch' hrx)
      rw [hsent, List.mem_append, List.mem_singleton, or_iff_left hne]
  · intro id' hnone
    rw [hlives] at hnone
    have hid : id' ≠ id := by
      rintro rfl
      rw [hlife] at hnone
      cases hnone
    obtain ⟨hs, hr⟩ := hother id' hid
    rw [hs, hr]
    exact h.idle id' hnone
  · rw [hlives]
    exact h.apart
  · rw [hlives, hchannels]
    exact h.bound
  · intro ch' hmem
    rw [hsent, List.mem_append, List.mem_singleton] at hmem
    rw [hchannels]
    rcases hmem with hold | rfl
    · exact h.sent ch' hold
    · exact h.bound id life ch' hlife hrx
  · intro id' hmem
    rw [hbranches] at hmem
    rw [hreports]
    exact Nat.ne_of_gt (Nat.add_pos_left (Nat.pos_of_ne_zero (h.branches id' hmem)) _)

/-- The last step of `finish_job` drops the sender, if it is still there. -/
theorem retire (h : SignalInv s) (hlife : s.lives.lookup id = some life)
    (hcancels : s'.engine.cancels = s.engine.cancels.erase id)
    (hsenders : s'.senders = s.senders.erase id) (hsent : s'.sent = s.sent)
    (hchannels : s'.channels = s.channels) (hlives : s'.lives = s.lives.insert id life')
    (hobserved : s'.observed = s.observed) (hregistered : life.pc.registered = true)
    (herased : life'.pc.isErased = true) (hregistered' : life'.pc.registered = true)
    (hrx : life'.rx = life.rx) : SignalInv s' := by
  have hold : ∀ id' other, s'.lives.lookup id' = some other →
      ∃ old, s.lives.lookup id' = some old ∧ other.rx = old.rx := by
    intro id' other hother
    rw [hlives] at hother
    rcases lookup_insert_iff.mp hother with ⟨rfl, rfl⟩ | ⟨-, hsame⟩
    · exact ⟨life, hlife, hrx⟩
    · exact ⟨other, hsame, rfl⟩
  refine ⟨h.table_erase hcancels hsenders, ?_, ?_, ?_, ?_, ?_, ?_⟩
  · intro id' other hother
    rw [hlives] at hother
    rcases lookup_insert_iff.mp hother with ⟨rfl, rfl⟩ | ⟨hne, hsame⟩
    · have hgone : s'.senders.lookup id' = none := by
        rw [hsenders]
        exact AList.lookup_erase _ _
      cases h.armed id' life hlife with
      | unregistered hpc => rw [hregistered] at hpc; cases hpc
      | held ch _ _ hrx' _ hnot hzero =>
          exact .dropped ch herased (hrx.trans hrx') hgone (by rw [hsent]; exact hnot)
            (by rw [hobserved]; exact hzero)
      | signalled ch _ hrx' _ hmem hone =>
          exact .signalled ch hregistered' (hrx.trans hrx') hgone (by rw [hsent]; exact hmem)
            (by rw [hobserved]; exact hone)
      | dropped ch _ hrx' _ hnot hzero =>
          exact .dropped ch herased (hrx.trans hrx') hgone (by rw [hsent]; exact hnot)
            (by rw [hobserved]; exact hzero)
    · exact armed_same (h.armed id' other hsame)
        (by rw [hsenders]; exact AList.lookup_erase_ne hne) (fun ch _ => by rw [hsent])
        (by rw [hobserved]) rfl rfl rfl
  · intro id' hnone
    rw [hlives] at hnone
    by_cases hid : id' = id
    · rw [hid, AList.lookup_insert] at hnone
      cases hnone
    · rw [AList.lookup_insert_ne hid] at hnone
      rw [hsenders, hobserved, AList.lookup_erase_ne hid]
      exact h.idle id' hnone
  · intro id₁ id₂ life₁ life₂ ch h₁ h₂ hch₁ hch₂
    obtain ⟨old₁, hget₁, hrx₁⟩ := hold id₁ life₁ h₁
    obtain ⟨old₂, hget₂, hrx₂⟩ := hold id₂ life₂ h₂
    exact h.apart id₁ id₂ old₁ old₂ ch hget₁ hget₂ (hrx₁ ▸ hch₁) (hrx₂ ▸ hch₂)
  · intro id' other ch hother hch
    obtain ⟨old, hget, hrx'⟩ := hold id' other hother
    rw [hchannels]
    exact h.bound id' old ch hget (hrx' ▸ hch)
  · rw [hsent, hchannels]
    exact h.sent
  · rw [hobserved]
    exact h.branches

theorem step (h : SignalInv s) (hjobs : JobsInv s) (he : Effect s l s') : SignalInv s' := by
  cases he with
  | inserted cs call req launch env now hl hc =>
      exact h.insert hjobs.fresh_life rfl rfl rfl rfl rfl rfl rfl rfl
  | registered id life hlife hpc => exact h.register hlife hpc _ rfl rfl rfl rfl rfl rfl
  | cancelled cs call req told env now hl hc hentry =>
      refine h.kill hentry rfl rfl rfl rfl rfl (fun id' => ?_) rfl
      rw [Server.reportCancel, Observed.reports_cancels]
      simp [Server.cancelReport]
  | refused cs call req told env now hl hc hentry =>
      refine h.same rfl rfl rfl rfl rfl (fun id' => ?_) rfl
      rw [Server.reportCancel, Observed.reports_cancels]
      simp [Server.cancelReport]
  | counted call sid id rest n hc hentry =>
      refine h.kill hentry rfl rfl rfl rfl rfl (fun id' => ?_) rfl
      rw [Observed.reports_counted]
  | moved id life pc hlife hmove =>
      refine h.move hlife rfl rfl rfl rfl rfl (fun _ => rfl) (fun _ => Or.inl) rfl ?_ ?_
      · show pc.registered = life.pc.registered
        cases hmove <;> simp_all [LifePc.registered]
      · show pc.isErased = life.pc.isErased
        cases hmove <;> simp_all [LifePc.isErased]
  | branched id life task task' hlife hpc hready =>
      have hreports := h.ready hlife (by rw [hpc]; rfl) hready
      refine h.move hlife rfl rfl rfl rfl rfl (fun _ => rfl) (fun id' hmem => ?_) rfl
        (by rw [hpc]; rfl) (by rw [hpc]; rfl)
      refine (List.mem_append.mp hmem).imp_right fun hnew => ?_
      rw [List.mem_singleton.mp hnew]
      exact hreports
  | startRecorded id life now hlife hpc =>
      exact h.move hlife rfl rfl rfl rfl rfl (fun _ => rfl) (fun _ => Or.inl) rfl
        (by rw [hpc]; rfl) (by rw [hpc]; rfl)
  | spawned id life hlife hpc =>
      exact h.move hlife rfl rfl rfl rfl rfl (fun _ => rfl) (fun _ => Or.inl) rfl
        (by rw [hpc]; rfl) (by rw [hpc]; rfl)
  | pushed id life task task' job event hlife hpc hjob =>
      exact h.move hlife rfl rfl rfl rfl rfl (fun _ => rfl) (fun _ => Or.inl) rfl
        (by rw [hpc]; rfl) (by rw [hpc]; rfl)
  | terminal id life job status now hlife hpc hjob =>
      exact h.move hlife rfl rfl rfl rfl rfl (fun _ => rfl) (fun _ => Or.inl) rfl
        (by rw [hpc]; rfl) (by rw [hpc]; rfl)
  | notified id life status hlife hpc =>
      exact h.move hlife rfl rfl rfl rfl rfl (fun _ => rfl) (fun _ => Or.inl) rfl
        (by rw [hpc]; rfl) (by rw [hpc]; rfl)
  | finishRecorded id life status now hlife hpc =>
      exact h.move hlife rfl rfl rfl rfl rfl (fun _ => rfl) (fun _ => Or.inl) rfl
        (by rw [hpc]; rfl) (by rw [hpc]; rfl)
  | retired id life status hlife hpc =>
      exact h.retire hlife rfl rfl rfl rfl rfl rfl (by rw [hpc]; rfl) rfl rfl rfl
  | _ => exact h.same rfl rfl rfl rfl rfl (fun _ => rfl) rfl

end SignalInv

/-! ## By whom, and how many -/

/-- How many jobs a `cancel_for_session` has been told it signalled. -/
def Observed.counts (self : Observed) (call : Nat) : Nat :=
  self.counted.countP (·.call = call)

/-- A call that is past its ownership check, or walks a session's jobs, is at
jobs of its session; so are the reports of success. -/
structure OwnerInv (s : Server) : Prop where
  killing : ∀ call req told, s.calls.lookup call = some (.killing req told) →
    s.engine.Owns req.sessionId req.jobId
  killingAll : ∀ call sid rest n, s.calls.lookup call = some (.killingAll sid rest n) →
    ∀ id ∈ rest, s.engine.Owns sid id
  successes : ∀ x ∈ s.observed.successes, s.engine.Owns x.1 x.2

/-- What a `cancel_for_session` returns is the number of its reports. -/
structure CountInv (s : Server) : Prop where
  calls : ∀ call c, s.calls.lookup call = some c → call < s.callCount
  counted : ∀ r ∈ s.observed.counted, r.call < s.callCount
  counting : ∀ call sid rest n, s.calls.lookup call = some (.killingAll sid rest n) →
    n = s.observed.counts call
  totals : ∀ t ∈ s.observed.totals, t.count = s.observed.counts t.call
    ∧ t.call < s.callCount ∧ s.calls.lookup t.call = none

namespace OwnerInv

variable {s s' : Server} {l : ServerLabel} {display : Error → String}

theorem init (h : (serverSystem display).init s) : OwnerInv s := by
  obtain ⟨-, -, -, -, -, -, -, hcalls, -, -, -, -, -, hobserved⟩ := h
  refine ⟨?_, ?_, ?_⟩
  · intro call req told hc
    rw [hcalls] at hc
    cases hc
  · intro call sid rest n hc
    rw [hcalls] at hc
    cases hc
  · intro x hmem
    rw [hobserved] at hmem
    cases hmem

/-- The calls after a step, by the calls before it. -/
theorem calls_step (h : OwnerInv s) (hjobs : JobsInv s)
    (hs : (serverSystem display).step s l = some s') {call : Nat} {c : ServerCall}
    (hc : s'.calls.lookup call = some c) :
    (∀ req told, c = .killing req told → s.engine.Owns req.sessionId req.jobId)
      ∧ ∀ sid rest n, c = .killingAll sid rest n → ∀ id ∈ rest, s.engine.Owns sid id := by
  rcases Server.step_calls hs hc with hold | hnext
  · constructor
    · rintro req told rfl
      exact h.killing call req told hold
    · rintro sid rest n rfl
      exact h.killingAll call sid rest n hold
  · cases hnext with
    | opening session hid hevents heq =>
        exact ⟨fun req told h => (nomatch h), fun sid rest n h => (nomatch h)⟩
    | first r c hgate hfirst heq =>
        constructor
        · rintro req told rfl
          cases r <;> cases hfirst
        · rintro sid rest n rfl
          cases r <;> cases hfirst
    | killingAll sid heq =>
        refine ⟨fun req told h => (nomatch h), ?_⟩
        rintro sid' rest n heq' id hmem
        obtain ⟨rfl, rfl, rfl⟩ := ServerCall.killingAll.inj heq'
        exact hjobs.listed sid id hmem
    | goes call d c hd hgoes =>
        cases hgoes with
        | cancelling req told hown =>
            refine ⟨?_, fun sid rest n h => (nomatch h)⟩
            rintro req' told' heq
            obtain ⟨rfl, rfl⟩ := ServerCall.killing.inj heq
            exact hown
        | counting sid id rest n hcounted =>
            refine ⟨fun req told h => (nomatch h), ?_⟩
            rintro sid' rest' n' heq id' hmem
            obtain ⟨rfl, rfl, rfl⟩ := ServerCall.killingAll.inj heq
            exact h.killingAll call sid _ _ hd id' (List.mem_cons_of_mem _ hmem)
        | skipping sid id rest n =>
            refine ⟨fun req told h => (nomatch h), ?_⟩
            rintro sid' rest' n' heq id' hmem
            obtain ⟨rfl, rfl, rfl⟩ := ServerCall.killingAll.inj heq
            exact h.killingAll call sid _ _ hd id' (List.mem_cons_of_mem _ hmem)
        | _ => exact ⟨fun req told h => (nomatch h), fun sid rest n h => (nomatch h)⟩

/-- The reports of success after a step. -/
theorem successes_step (h : OwnerInv s) (he : Effect s l s') :
    ∀ x ∈ s'.observed.successes, s.engine.Owns x.1 x.2 := by
  cases he with
  | cancelled cs call req told env now hl hc hentry =>
      intro x hmem
      rcases Observed.mem_successes.mp hmem with ⟨r, hr, hok, hx⟩ | hcounted
      · rcases List.mem_append.mp hr with hold | hnew
        · exact h.successes x (Observed.mem_successes.mpr (Or.inl ⟨r, hold, hok, hx⟩))
        · rw [List.mem_singleton.mp hnew] at hx
          rw [← hx]
          exact h.killing call req told hc
      · exact h.successes x (Observed.mem_successes.mpr (Or.inr hcounted))
  | refused cs call req told env now hl hc hentry =>
      intro x hmem
      rcases Observed.mem_successes.mp hmem with ⟨r, hr, hok, hx⟩ | hcounted
      · rcases List.mem_append.mp hr with hold | hnew
        · exact h.successes x (Observed.mem_successes.mpr (Or.inl ⟨r, hold, hok, hx⟩))
        · rw [List.mem_singleton.mp hnew] at hok
          cases hok
      · exact h.successes x (Observed.mem_successes.mpr (Or.inr hcounted))
  | counted call sid id rest n hc hentry =>
      intro x hmem
      rcases Observed.mem_successes.mp hmem with hcancels | ⟨r, hr, hx⟩
      · exact h.successes x (Observed.mem_successes.mpr (Or.inl hcancels))
      · rcases List.mem_append.mp hr with hold | hnew
        · exact h.successes x (Observed.mem_successes.mpr (Or.inr ⟨r, hold, hx⟩))
        · rw [List.mem_singleton.mp hnew] at hx
          rw [← hx]
          exact h.killingAll call sid _ _ hc id (List.mem_cons_self ..)
  | _ => exact h.successes

theorem step (h : OwnerInv s) (hjobs : JobsInv s)
    (hs : (serverSystem display).step s l = some s') : OwnerInv s' := by
  have he := Server.step_effect hs
  have hprog := hjobs.progress he
  refine ⟨?_, ?_, ?_⟩
  · exact fun call req told hc => hprog.owns ((h.calls_step hjobs hs hc).1 req told rfl)
  · exact fun call sid rest n hc id hmem =>
      hprog.owns ((h.calls_step hjobs hs hc).2 sid rest n rfl id hmem)
  · exact fun x hmem => hprog.owns (h.successes_step he x hmem)

end OwnerInv

namespace CountInv

variable {s s' : Server} {l : ServerLabel} {display : Error → String}

theorem init (h : (serverSystem display).init s) : CountInv s := by
  obtain ⟨-, -, -, -, -, -, -, hcalls, -, -, -, -, -, hobserved⟩ := h
  refine ⟨?_, ?_, ?_, ?_⟩
  · intro call c hc
    rw [hcalls] at hc
    cases hc
  · intro r hmem
    rw [hobserved] at hmem
    cases hmem
  · intro call sid rest n hc
    rw [hcalls] at hc
    cases hc
  · intro t hmem
    rw [hobserved] at hmem
    cases hmem

/-- A call that has not begun has counted nothing. -/
theorem counts_fresh (h : CountInv s) : s.observed.counts s.callCount = 0 := by
  rw [Observed.counts, List.countP_eq_zero]
  intro r hmem hsame
  exact absurd (of_decide_eq_true hsame) (Nat.ne_of_lt (h.counted r hmem))

/-- The numbers of calls in flight have been given out. -/
theorem calls_step (h : CountInv s)
    (hs : (serverSystem display).step s l = some s') :
    s.callCount ≤ s'.callCount
      ∧ ∀ call c, s'.calls.lookup call = some c → call < s'.callCount := by
  have hmono := (Server.step_effect hs).callCount_le
  refine ⟨hmono, fun call c hc => ?_⟩
  rcases Server.step_calls hs hc with hold | hnext
  · exact (h.calls call c hold).trans_le hmono
  · cases hnext with
    | opening session hid hevents heq =>
        rw [heq]
        exact Nat.lt_succ_self _
    | first r c hgate hfirst heq =>
        rw [heq]
        exact Nat.lt_succ_self _
    | killingAll sid heq =>
        rw [heq]
        exact Nat.lt_succ_self _
    | goes call d c hd hgoes => exact (h.calls call d hd).trans_le hmono

/-- A number that has been given out, to a call that is over, is no call's. -/
theorem not_next {t : Nat} {c : ServerCall} (hlt : t < s.callCount)
    (hnone : s.calls.lookup t = none) : ¬Next s s' t c := by
  intro hnext
  cases hnext with
  | opening session => exact Nat.lt_irrefl _ hlt
  | first r => exact Nat.lt_irrefl _ hlt
  | killingAll sid => exact Nat.lt_irrefl _ hlt
  | goes call d c hd hgoes =>
      rw [hnone] at hd
      cases hd

/-- The steps that count nothing. -/
theorem frame (h : CountInv s) (hs : (serverSystem display).step s l = some s')
    (hcounted : s'.observed.counted = s.observed.counted)
    (htotals : ∀ t ∈ s'.observed.totals, t ∈ s.observed.totals
      ∨ t.count = s.observed.counts t.call ∧ t.call < s.callCount
        ∧ s'.calls.lookup t.call = none) : CountInv s' := by
  obtain ⟨hmono, hcalls⟩ := h.calls_step hs
  have hcounts : ∀ call, s'.observed.counts call = s.observed.counts call := fun call => by
    rw [Observed.counts, Observed.counts, hcounted]
  refine ⟨hcalls, ?_, ?_, ?_⟩
  · intro r hmem
    rw [hcounted] at hmem
    exact (h.counted r hmem).trans_le hmono
  · intro call sid rest n hc
    rw [hcounts]
    rcases Server.step_calls hs hc with hold | hnext
    · exact h.counting call sid rest n hold
    · cases hnext with
      | first r c hgate hfirst heq => cases r <;> cases hfirst
      | killingAll sid heq => exact h.counts_fresh.symm
      | goes call d c hd hgoes =>
          cases hgoes with
          | counting sid id rest n hnew =>
              have hlen := congrArg List.length (hcounted.symm.trans hnew)
              rw [List.length_append, List.length_singleton] at hlen
              omega
          | skipping sid id rest n => exact h.counting call sid _ _ hd
  · intro t hmem
    rw [hcounts]
    rcases htotals t hmem with hold | ⟨hcount, hlt, hnone⟩
    · obtain ⟨hcount, hlt, hnone⟩ := h.totals t hold
      refine ⟨hcount, hlt.trans_le hmono, ?_⟩
      -- A call that is over does not come back.
      cases hget : s'.calls.lookup t.call with
      | none => rfl
      | some c =>
          rcases Server.step_calls hs hget with hold' | hnext
          · rw [hnone] at hold'
            cases hold'
          · exact absurd hnext (not_next hlt hnone)
    · exact ⟨hcount, hlt.trans_le hmono, hnone⟩

/-- One more job has been signalled for a call. -/
theorem count (h : CountInv s) {call : Nat} {sid : SessionId} {id : JobId} {rest : List JobId}
    {n : Nat} (hc : s.calls.lookup call = some (.killingAll sid (id :: rest) n))
    (hcalls : s'.calls = s.calls.insert call (.killingAll sid rest (n + 1)))
    (hcount : s'.callCount = s.callCount)
    (hcounted : s'.observed.counted = s.observed.counted ++ [⟨call, sid, id⟩])
    (htotals : s'.observed.totals = s.observed.totals) : CountInv s' := by
  have hcounts : ∀ c, s'.observed.counts c = s.observed.counts c + if call = c then 1 else 0 := by
    intro c
    simp only [Observed.counts, hcounted, List.countP_append, List.countP_singleton,
      decide_eq_true_eq]
  have hlt := h.calls call _ hc
  refine ⟨?_, ?_, ?_, ?_⟩
  · intro call' c hc'
    rw [hcalls] at hc'
    rw [hcount]
    rcases lookup_insert_iff.mp hc' with ⟨rfl, -⟩ | ⟨-, hold⟩
    · exact hlt
    · exact h.calls call' c hold
  · intro r hmem
    rw [hcounted, List.mem_append, List.mem_singleton] at hmem
    rw [hcount]
    rcases hmem with hold | rfl
    · exact h.counted r hold
    · exact hlt
  · intro call' sid' rest' n' hc'
    rw [hcalls] at hc'
    rw [hcounts]
    rcases lookup_insert_iff.mp hc' with ⟨rfl, heq⟩ | ⟨hne, hold⟩
    · obtain ⟨rfl, rfl, rfl⟩ := ServerCall.killingAll.inj heq
      rw [if_pos rfl, ← h.counting call' _ _ n hc]
    · rw [if_neg hne.symm]
      exact h.counting call' sid' rest' n' hold
  · intro t hmem
    rw [htotals] at hmem
    obtain ⟨hsum, hlt', hnone⟩ := h.totals t hmem
    have hne : t.call ≠ call := by
      intro hsame
      rw [hsame, hc] at hnone
      cases hnone
    rw [hcounts, if_neg hne.symm, hcalls, hcount, AList.lookup_insert_ne hne]
    exact ⟨hsum, hlt', hnone⟩

theorem step (h : CountInv s)
    (hs : (serverSystem display).step s l = some s') : CountInv s' := by
  have he := Server.step_effect hs
  cases he with
  | counted call sid id rest n hc hentry => exact h.count hc rfl rfl rfl rfl
  | totalled cs call sid n hc hcs =>
      refine h.frame hs rfl fun t hmem => ?_
      rcases List.mem_append.mp hmem with hold | hnew
      · exact Or.inl hold
      · refine Or.inr ?_
        rw [List.mem_singleton.mp hnew]
        refine ⟨h.counting call sid _ n hc, h.calls call _ hc, ?_⟩
        show cs.lookup call = none
        rw [hcs]
        exact AList.lookup_erase _ _
  | _ => exact h.frame hs rfl fun t => Or.inl

end CountInv

/-! ## Cancelled at most once -/

/-- Everything that holds of a server on every run. -/
structure CancelsInv (s : Server) : Prop where
  jobs : JobsInv s
  signals : SignalInv s
  owners : OwnerInv s
  counts : CountInv s

namespace CancelsInv

variable {s s' : Server} {l : ServerLabel} {display : Error → String}

theorem init (h : (serverSystem display).init s) : CancelsInv s :=
  ⟨.init h, .init h, .init h, .init h⟩

theorem step (h : CancelsInv s)
    (hs : (serverSystem display).step s l = some s') : CancelsInv s' := by
  have he := Server.step_effect hs
  exact ⟨h.jobs.step he, h.signals.step h.jobs he, h.owners.step h.jobs hs, h.counts.step hs⟩

theorem reach (h : Reach (serverSystem display) s) : CancelsInv s :=
  h.invariant (fun _ => init) fun _ _ _ hinv _ hs => hinv.step hs

end CancelsInv

/-- A job has been reported cancelled at most once. -/
theorem SignalInv.reports_le {s : Server} (h : SignalInv s) (id : JobId) :
    s.observed.reports id ≤ 1 := by
  cases hlife : s.lives.lookup id with
  | none =>
      rw [(h.idle id hlife).2]
      exact Nat.zero_le 1
  | some life =>
      cases h.armed id life hlife with
      | unregistered _ _ _ hzero => omega
      | held ch _ _ _ _ _ hzero => omega
      | signalled ch _ _ _ _ hone => omega
      | dropped ch _ _ _ _ hzero => omega

/-- In every run: at most one call reports success for a job, and that was a
call of the session that owns it, or for that session; a task takes its
cancellation branch only if such a success has been reported for its own job;
and what a `cancel_for_session` returns is the number of its successes. -/
theorem cancelled_at_most_once {display : Error → String} {s : Server}
    (hs : Reach (serverSystem display) s) :
    (∀ id, (s.observed.successes.filter (·.2 = id)).length ≤ 1)
      ∧ (∀ x ∈ s.observed.successes, ∃ job, s.engine.jobs.get x.2 = some job
        ∧ job.sessionId = x.1)
      ∧ (∀ id ∈ s.observed.branches, ∃ sid, (sid, id) ∈ s.observed.successes)
      ∧ ∀ t ∈ s.observed.totals, t.count = s.observed.counted.countP (·.call = t.call) := by
  have hinv := CancelsInv.reach hs
  refine ⟨fun id => ?_, hinv.owners.successes, fun id hmem => ?_, fun t hmem => ?_⟩
  · rw [Observed.reports_eq]
    exact hinv.signals.reports_le id
  · have hreports := hinv.signals.branches id hmem
    rw [← Observed.reports_eq, Nat.ne_zero_iff_zero_lt, List.length_pos_iff_exists_mem] at hreports
    obtain ⟨⟨sid, id'⟩, hx⟩ := hreports
    obtain ⟨hmem', hid⟩ := List.mem_filter.mp hx
    exact ⟨sid, of_decide_eq_true hid ▸ hmem'⟩
  · exact (hinv.counts.totals t hmem).1

/-- Two cancels of one job and a `cancel_for_session`: one of them succeeds,
and the task takes its cancellation branch. -/
theorem cancelled_at_most_once_raced : ∃ s, Reach (serverSystem fun _ => "") s
    ∧ ⟨"j_1"⟩ ∈ s.observed.branches
    ∧ (s.observed.successes.filter (·.2 = ⟨"j_1"⟩)).length = 1 := by
  obtain ⟨s, hs, hp⟩ := ReachVia.of_run (G := fun _ _ => True) (Server.launched_init fun _ => "")
    (insertRun ++ spawnRun ++ [.request (.jobCancel ⟨⟨"s_1"⟩, "ct_1", ⟨"j_1"⟩⟩),
      .request (.jobCancel ⟨⟨"s_1"⟩, "ct_1", ⟨"j_1"⟩⟩), .cancelForSession ⟨"s_1"⟩,
      .advance 2 plainHost .unixEpoch, .advance 3 plainHost .unixEpoch,
      .advance 3 plainHost .unixEpoch, .advance 4 plainHost .unixEpoch,
      .advance 2 plainHost .unixEpoch, .life ⟨"j_1"⟩ (.drain .cancelReady) .unixEpoch])
    (fun s => s.observed.branches = [⟨"j_1"⟩]) (by decide +kernel)
  have hbranch : ⟨"j_1"⟩ ∈ s.observed.branches := by
    rw [of_decide_eq_true hp]
    exact List.mem_singleton_self _
  obtain ⟨hle, -, hbranches, -⟩ := cancelled_at_most_once hs
  obtain ⟨sid, hmem⟩ := hbranches _ hbranch
  have hpos : 0 < (s.observed.successes.filter (·.2 = ⟨"j_1"⟩)).length :=
    List.length_pos_of_mem (List.mem_filter.mpr ⟨hmem, decide_eq_true rfl⟩)
  exact ⟨s, hs, hbranch, Nat.le_antisymm (hle _) hpos⟩

end Axp
