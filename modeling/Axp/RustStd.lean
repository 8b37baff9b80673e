import Mathlib.Algebra.Order.Ring.Nat
import Mathlib.Data.List.AList
import Mathlib.Data.List.Infix

/-!
# What the code uses of the Rust standard library

A 64-bit Unix target throughout: `usize` is 64 bits wide, no allocation and
no file is longer than `isize::MAX` bytes (`Bytes` carries that bound, so a
longer buffer cannot be built), and a `SystemTime` is a signed 64-bit number
of seconds with a nanosecond part below one second.

Times are compared and moved through their distance from the epoch in
nanoseconds (`SystemTime.toNanos`), which is where borrowing between the two
fields happens once and for all: `checked_add` and `checked_sub` fail exactly
when the result leaves the representable range.
-/

namespace Axp

/-! ## Sizes -/

/-- `isize::MAX`, the longest allocation and the longest file offset. -/
def isizeMax : Nat := 2 ^ 63 - 1

/-- `usize::checked_add`. -/
def checkedAdd (a b : Nat) : Option Nat :=
  if a + b < 2 ^ 64 then some (a + b) else none

theorem checkedAdd_of_lt {a b : Nat} (h : a + b < 2 ^ 64) :
    checkedAdd a b = some (a + b) := if_pos h

theorem checkedAdd_eq_some {a b t : Nat} :
    checkedAdd a b = some t ↔ t = a + b ∧ a + b < 2 ^ 64 := by
  unfold checkedAdd
  split <;> simp_all [eq_comm]

/-- An owned byte buffer: a `Vec<u8>`, a `Bytes` or a file's contents. -/
structure Bytes where
  toList : List UInt8
  length_le : toList.length ≤ isizeMax
deriving DecidableEq

namespace Bytes

@[ext] theorem ext {a b : Bytes} (h : a.toList = b.toList) : a = b := by
  cases a; cases b; simpa using h

def len (b : Bytes) : Nat := b.toList.length

theorem len_le (b : Bytes) : b.len ≤ isizeMax := b.length_le

theorem len_lt (b : Bytes) : b.len < 2 ^ 63 := by
  have := b.len_le
  simp only [isizeMax] at this
  omega

def empty : Bytes := ⟨[], by simp⟩

@[simp] theorem empty_len : empty.len = 0 := rfl

instance : Inhabited Bytes := ⟨empty⟩

/-- A buffer over a list that is short enough to be one. -/
def ofList? (l : List UInt8) : Option Bytes :=
  if h : l.length ≤ isizeMax then some ⟨l, h⟩ else none

/-- The sub-slice of `n` bytes from `off`. -/
def slice (b : Bytes) (off n : Nat) : Bytes :=
  ⟨(b.toList.drop off).take n, by
    have := b.length_le
    rw [List.length_take, List.length_drop]
    omega⟩

@[simp] theorem slice_toList (b : Bytes) (off n : Nat) :
    (b.slice off n).toList = (b.toList.drop off).take n := rfl

end Bytes

/-! ## Strings -/

/-- `str::starts_with` a string. -/
def startsWith (s pre : String) : Bool := pre.toList.isPrefixOf s.toList

/-- `str::ends_with` a string. -/
def endsWith (s suf : String) : Bool := suf.toList.isSuffixOf s.toList

/-- `str::strip_prefix`. -/
def stripPrefix (s pre : String) : Option String :=
  (pre.toList.isPrefixOf? s.toList).map String.ofList

/-- `str::strip_suffix`. -/
def stripSuffix (s suf : String) : Option String :=
  (suf.toList.isSuffixOf? s.toList).map String.ofList

theorem stripSuffix_eq_some {s suf p : String} :
    stripSuffix s suf = some p ↔ s.toList = p.toList ++ suf.toList := by
  rw [stripSuffix, List.isSuffixOf?, Option.map_eq_some_iff]
  simp only [Option.map_eq_some_iff, List.isPrefixOf?_eq_some_iff_append_eq]
  constructor
  · rintro ⟨_, ⟨front, hfront, rfl⟩, rfl⟩
    rw [String.toList_ofList, ← List.reverse_inj, List.reverse_append, List.reverse_reverse,
      hfront]
  · intro h
    refine ⟨p.toList, ⟨p.toList.reverse, ?_, List.reverse_reverse _⟩, String.ofList_toList⟩
    rw [h, List.reverse_append]

/-- `char::is_whitespace`: the Unicode property `White_Space`. -/
def isWhitespace (c : Char) : Bool :=
  (9 ≤ c.toNat && c.toNat ≤ 13) || c.toNat = 0x20 || c.toNat = 0x85 || c.toNat = 0xA0
    || c.toNat = 0x1680 || (0x2000 ≤ c.toNat && c.toNat ≤ 0x200A) || c.toNat = 0x2028
    || c.toNat = 0x2029 || c.toNat = 0x202F || c.toNat = 0x205F || c.toNat = 0x3000

/-- `str::trim`. -/
def trim (s : String) : String :=
  .ofList ((s.toList.dropWhile isWhitespace).reverse.dropWhile isWhitespace).reverse

/-- `str::replace` of one character. -/
def replace (s : String) (old new : Char) : String :=
  .ofList (s.toList.map fun c => if c = old then new else c)

/-- Decimal numerals are distinct. -/
theorem toString_injective {m n : Nat} (h : toString m = toString n) : m = n := by
  have hdigits : Nat.toDigits 10 m = Nat.toDigits 10 n := by
    simpa using congrArg String.toList h
  have := congrArg (Nat.ofDigitChars 10 · 0) hdigits
  simpa only [Nat.ofDigitChars_toDigits (b := 10) (by decide) (by decide)] using this

/-! ## Early return -/

/-- The `?` operator: a computation in `Result` succeeds exactly when each
part does. -/
theorem bind_eq_ok {ε α β : Type} {x : Except ε α} {f : α → Except ε β} {b : β} :
    x >>= f = .ok b ↔ ∃ a, x = .ok a ∧ f a = .ok b := by
  cases x with
  | error e => simp [bind, Except.bind]
  | ok a => simp [bind, Except.bind]

theorem mapError_eq_ok {ε ε' α : Type} {f : ε → ε'} {x : Except ε α} {a : α} :
    x.mapError f = .ok a ↔ x = .ok a := by
  cases x <;> simp [Except.mapError]

theorem map_eq_ok {ε α β : Type} {f : α → β} {x : Except ε α} {b : β} :
    x.map f = .ok b ↔ ∃ a, x = .ok a ∧ b = f a := by
  cases x <;> simp [Except.map, eq_comm]

theorem map_eq_error {ε α β : Type} {f : α → β} {x : Except ε α} {e : ε} :
    x.map f = .error e ↔ x = .error e := by
  cases x <;> simp [Except.map]

/-- What every step of a fallible loop keeps, the loop keeps. -/
theorem foldlM_invariant {ε α β : Type} {f : β → α → Except ε β} {P : β → Prop}
    (hf : ∀ b a b', P b → f b a = .ok b' → P b') :
    ∀ {l : List α} {b b' : β}, P b → l.foldlM f b = .ok b' → P b' := by
  intro l
  induction l with
  | nil =>
      intro b b' hb h
      obtain rfl := Except.ok.inj h
      exact hb
  | cons a l ih =>
      intro b b' hb h
      rw [List.foldlM_cons] at h
      obtain ⟨m, hm, hrest⟩ := bind_eq_ok.mp h
      exact ih (hf b a m hb hm) hrest

/-- A loop of checks passes exactly when each check does. -/
theorem forM_eq_ok {ε α : Type} {f : α → Except ε Unit} {l : List α} :
    l.forM f = .ok () ↔ ∀ a ∈ l, f a = .ok () := by
  induction l with
  | nil => exact iff_of_true rfl (by simp)
  | cons a l ih =>
      rw [List.forM_eq_forM] at ih ⊢
      rw [List.forM_cons, bind_eq_ok, List.forall_mem_cons, ← ih]
      constructor
      · rintro ⟨⟨⟩, ha, hl⟩
        exact ⟨ha, hl⟩
      · rintro ⟨ha, hl⟩
        exact ⟨(), ha, hl⟩

/-- `Option::ok_or`. -/
def okOr {ε α : Type} (o : Option α) (e : ε) : Except ε α :=
  match o with
  | some a => .ok a
  | none => .error e

theorem okOr_eq_ok {ε α : Type} {o : Option α} {e : ε} {a : α} :
    okOr o e = .ok a ↔ o = some a := by
  cases o <;> simp [okOr]

/-- An early `return Err(..)` under a condition. -/
theorem ite_error_eq_ok {ε α : Type} {c : Prop} [Decidable c] {e : ε} {x : Except ε α}
    {a : α} : (if c then .error e else x) = .ok a ↔ ¬c ∧ x = .ok a := by
  split <;> simp_all

/-! ## Hash maps -/

/-- A `HashMap`: distinct keys by construction. Iteration order is not part
of any statement made about one. -/
abbrev HashMap (K V : Type) := AList fun _ : K => V

/-! ## Time -/

/-- Nanoseconds in a second. -/
def nanosPerSec : Nat := 1000000000

theorem nanosPerSec_pos : 0 < nanosPerSec := by decide

/-- `std::time::Duration`. -/
structure Duration where
  secs : Nat
  nanos : Nat
  secs_lt : secs < 2 ^ 64
  nanos_lt : nanos < nanosPerSec
deriving DecidableEq

namespace Duration

@[ext] theorem ext {a b : Duration} (hs : a.secs = b.secs) (hn : a.nanos = b.nanos) :
    a = b := by
  cases a; cases b; simp only at hs hn; subst hs; subst hn; rfl

def toNanos (d : Duration) : Nat := d.secs * nanosPerSec + d.nanos

/-- The duration of `n` nanoseconds. -/
def ofNanos (n : Nat) (h : n < 2 ^ 64 * nanosPerSec) : Duration where
  secs := n / nanosPerSec
  nanos := n % nanosPerSec
  secs_lt := by simp only [nanosPerSec] at h ⊢; omega
  nanos_lt := Nat.mod_lt _ (by simp [nanosPerSec])

/-- `Duration::as_millis`. -/
def asMillis (d : Duration) : Nat := d.secs * 1000 + d.nanos / 1000000

end Duration

/-- `std::time::SystemTime` on Unix. -/
structure SystemTime where
  tvSec : Int
  tvNsec : Nat
  sec_ge : -2 ^ 63 ≤ tvSec
  sec_lt : tvSec < 2 ^ 63
  nsec_lt : tvNsec < nanosPerSec
deriving DecidableEq

namespace SystemTime

@[ext] theorem ext {a b : SystemTime} (hs : a.tvSec = b.tvSec) (hn : a.tvNsec = b.tvNsec) :
    a = b := by
  cases a; cases b; simp only at hs hn; subst hs; subst hn; rfl

def unixEpoch : SystemTime where
  tvSec := 0
  tvNsec := 0
  sec_ge := by omega
  sec_lt := by omega
  nsec_lt := nanosPerSec_pos

instance : Inhabited SystemTime := ⟨unixEpoch⟩

/-- Signed distance from the epoch, in nanoseconds. -/
def toNanos (t : SystemTime) : Int := t.tvSec * nanosPerSec + t.tvNsec

@[simp] theorem unixEpoch_toNanos : unixEpoch.toNanos = 0 := rfl

theorem toNanos_bounds (t : SystemTime) :
    -2 ^ 63 * nanosPerSec ≤ t.toNanos ∧ t.toNanos < 2 ^ 63 * nanosPerSec := by
  have h1 := t.sec_ge
  have h2 := t.sec_lt
  have h3 := t.nsec_lt
  simp only [toNanos, nanosPerSec] at *
  omega

/-- The instant `n` nanoseconds from the epoch, if its seconds fit in an
`i64`. -/
def ofNanos? (n : Int) : Option SystemTime :=
  if h : -2 ^ 63 ≤ n / nanosPerSec ∧ n / nanosPerSec < 2 ^ 63 then
    some
      { tvSec := n / nanosPerSec
        tvNsec := (n % nanosPerSec).toNat
        sec_ge := h.1
        sec_lt := h.2
        nsec_lt := by simp only [nanosPerSec]; omega }
  else none

theorem ofNanos?_toNanos (t : SystemTime) : ofNanos? t.toNanos = some t := by
  have h1 := t.sec_ge
  have h2 := t.sec_lt
  have h3 := t.nsec_lt
  have hdiv : t.toNanos / nanosPerSec = t.tvSec := by
    simp only [toNanos, nanosPerSec] at *
    omega
  have hmod : (t.toNanos % nanosPerSec).toNat = t.tvNsec := by
    simp only [toNanos, nanosPerSec] at *
    omega
  unfold ofNanos?
  rw [dif_pos (by rw [hdiv]; exact ⟨h1, h2⟩)]
  exact congrArg some (SystemTime.ext hdiv hmod)

theorem toNanos_of_ofNanos? {n : Int} {t : SystemTime} (h : ofNanos? n = some t) :
    t.toNanos = n := by
  unfold ofNanos? at h
  split at h
  · obtain rfl := Option.some.inj h
    simp only [toNanos, nanosPerSec]
    omega
  · cases h

/-- `SystemTime::duration_since`: the elapsed time, or the reverse
difference as the error. -/
def durationSince (self earlier : SystemTime) : Except Duration Duration :=
  if earlier.toNanos ≤ self.toNanos then
    .ok (Duration.ofNanos (self.toNanos - earlier.toNanos).toNat (by
      have := self.toNanos_bounds
      have := earlier.toNanos_bounds
      simp only [nanosPerSec] at *
      omega))
  else
    .error (Duration.ofNanos (earlier.toNanos - self.toNanos).toNat (by
      have := self.toNanos_bounds
      have := earlier.toNanos_bounds
      simp only [nanosPerSec] at *
      omega))

/-- `SystemTime::checked_add`. -/
def checkedAdd (self : SystemTime) (d : Duration) : Option SystemTime :=
  ofNanos? (self.toNanos + d.toNanos)

/-- `SystemTime::checked_sub`. -/
def checkedSub (self : SystemTime) (d : Duration) : Option SystemTime :=
  ofNanos? (self.toNanos - d.toNanos)

end SystemTime

end Axp
