import Mathlib.Algebra.GroupWithZero.Nat
import Xwr100.Upnp.Gatedevice

/-!
# When a mapping expires

`ScheduleMappingExpiration` and the default duration it falls back on, as
`getConfigOptionDuration` encodes it: a daily time of day is a negative number, and zero is no
default at all.  `long` and `time_t` have 32 bits, and a moment is a number of seconds.
-/

namespace Xwr100.Upnp

/-- What a `long` keeps of a result. -/
def toLong (n : Int) : Int := (n + 2147483648) % 4294967296 - 2147483648

theorem toLong_eq {n : Int} (h : -2147483648 ≤ n) (h' : n < 2147483648) : toLong n = n := by
  unfold toLong
  omega

theorem toLong_lt (n : Int) : toLong n < 2147483648 := by
  unfold toLong
  omega

/-! ## The default duration -/

/-- A match of `[[:digit:]]+`. -/
structure Digits where
  chars : List Char
  nonempty : chars ≠ []
  isDigit : ∀ c ∈ chars, c.isDigit = true

def Digits.value (n : Digits) : Nat := digits n.chars 0

/-- A match of `re_duration`: seconds or hours and minutes, or a time of day behind `@`. -/
inductive DefaultDuration where
  | seconds (n : Digits)
  | relative (hh mm : Digits)
  | absolute (hh mm : Digits) (hour : hh.value ≤ 23) (minute : mm.value ≤ 59)

namespace DefaultDuration

/-- Whether the first submatch holds `@`. -/
def absoluteTime : DefaultDuration → Bool
  | absolute .. => true
  | _ => false

def text : DefaultDuration → List Char
  | seconds n => n.chars
  | relative hh mm => hh.chars ++ ':' :: mm.chars
  | absolute hh mm _ _ => hh.chars ++ ':' :: mm.chars

end DefaultDuration

def atol (text : List Char) : Int := atoi (String.ofList text)

/-- The seconds `num` stands for: a number, or hours and minutes around the first colon. -/
def durationOf (num : List Char) : Int :=
  if ':' ∈ num then
    toLong (toLong (atol (num.takeWhile (· ≠ ':')) * 3600) +
      toLong (atol ((num.dropWhile (· ≠ ':')).drop 1) * 60))
  else atol num

/-- `getConfigOptionDuration`; `num` has room for 19 characters. -/
def getConfigOptionDuration (d : DefaultDuration) : Int :=
  let dur := durationOf (d.text.take 19)
  if d.absoluteTime then toLong (dur * -1) else dur

/-! ## The scheduler -/

def curclock (utcOffset curtime : Int) : Int := (curtime + utcOffset) % 86400

/-- `expirationTime` as `ScheduleMappingExpiration` sets it, or none when nothing expires. -/
def expirationTime (utcOffset curtime leaseDuration duration : Int) : Option Int :=
  if 0 < leaseDuration then some (toLong (curtime + leaseDuration))
  else if duration = 0 then none
  else if 0 < duration then some (toLong (curtime + duration))
  else
    let expclock := toLong (-1 * duration)
    let diff := toLong (expclock - curclock utcOffset curtime)
    let diff := if diff < 60 then toLong (diff + 24 * 60 * 60) else diff
    some (toLong (curtime + diff))

/-- A mapping gets an expiration time when the scheduler of the daemon takes it on. -/
theorem expirationTime_isSome (s : Igd) (utcOffset curtime leaseDuration : Int) :
    (expirationTime utcOffset curtime leaseDuration s.vars.duration).isSome =
      s.expires leaseDuration := by
  unfold expirationTime Igd.expires
  by_cases hlease : 0 < leaseDuration
  · simp [hlease]
  · by_cases hzero : s.vars.duration = 0
    · simp [hlease, hzero]
    · by_cases hpos : 0 < s.vars.duration <;> simp [hlease, hzero, hpos]

/-! ## Numbers of digits -/

theorem digits_append {a : List Char} (ha : ∀ c ∈ a, c.isDigit = true) (b : List Char) (n : Nat) :
    digits (a ++ b) n = digits b (digits a n) := by
  induction a generalizing n with
  | nil => rfl
  | cons c a ih =>
      have hc := ha c List.mem_cons_self
      rw [List.cons_append, digits, digits, if_pos hc, if_pos hc]
      exact ih (fun d hd => ha d (List.mem_cons_of_mem c hd)) _

theorem le_digits (l : List Char) (n : Nat) : n ≤ digits l n := by
  induction l generalizing n with
  | nil => exact le_rfl
  | cons c l ih =>
      rw [digits]
      split
      · exact (show n ≤ n * 10 + _ by omega).trans (ih _)
      · exact le_rfl

/-- Digits that are cut off do not make a number larger. -/
theorem Digits.digits_take_le (d : Digits) (k : Nat) : digits (d.chars.take k) 0 ≤ d.value := by
  have hsplit : d.value = digits (d.chars.drop k) (digits (d.chars.take k) 0) := by
    rw [Digits.value, ← digits_append fun c hc => d.isDigit c (List.mem_of_mem_take hc),
      List.take_append_drop]
  rw [hsplit]
  exact le_digits _ _

theorem not_isSpace_of_isDigit {c : Char} (h : c.isDigit = true) : isSpace c = false := by
  by_contra hspace
  simp only [isSpace, Bool.not_eq_false, Bool.or_eq_true, decide_eq_true_eq] at hspace
  obtain ((((rfl | rfl) | rfl) | rfl) | rfl) | rfl := hspace <;> exact absurd h (by decide)

theorem atol_of_digits {l : List Char} (h : ∀ c ∈ l, c.isDigit = true) :
    atol l = min 2147483647 (digits l 0 : Int) := by
  unfold atol atoi
  rw [String.toList_ofList]
  cases l with
  | nil => rfl
  | cons c l =>
      have hc := h c List.mem_cons_self
      rw [List.dropWhile_cons_of_neg (by simp [not_isSpace_of_isDigit hc])]
      split
      · rename_i heq
        cases heq
        exact absurd hc (by decide)
      · rename_i heq
        cases heq
        exact absurd hc (by decide)
      · rfl

/-! ## What the default stands for -/

namespace DefaultDuration

def value : DefaultDuration → Nat
  | seconds n => n.value
  | relative hh mm => hh.value * 3600 + mm.value * 60
  | absolute hh mm _ _ => hh.value * 3600 + mm.value * 60

/-- What the first 19 characters of a time in hours and minutes stand for. -/
def clockCut (hh mm : Digits) : Nat :=
  if 19 ≤ hh.chars.length then digits (hh.chars.take 19) 0
  else hh.value * 3600 + digits (mm.chars.take (18 - hh.chars.length)) 0 * 60

/-- What the first 19 characters stand for. -/
def cutValue : DefaultDuration → Nat
  | seconds n => digits (n.chars.take 19) 0
  | relative hh mm => clockCut hh mm
  | absolute hh mm _ _ => clockCut hh mm

end DefaultDuration

theorem clockCut_le (hh mm : Digits) :
    DefaultDuration.clockCut hh mm ≤ hh.value * 3600 + mm.value * 60 := by
  have hhour := hh.digits_take_le 19
  have hminute := mm.digits_take_le (18 - hh.chars.length)
  unfold DefaultDuration.clockCut
  split <;> omega

theorem cutValue_le (d : DefaultDuration) : d.cutValue ≤ d.value := by
  cases d with
  | seconds n => exact n.digits_take_le 19
  | relative hh mm => exact clockCut_le hh mm
  | absolute hh mm hour minute => exact clockCut_le hh mm

/-- Digits hold no colon. -/
theorem colon_not_mem {l : List Char} (h : ∀ c ∈ l, c.isDigit = true) : ':' ∉ l := by
  intro hmem
  exact absurd (h ':' hmem) (by decide)

theorem durationOf_digits {num : List Char} (h : ∀ c ∈ num, c.isDigit = true)
    (hfits : digits num 0 < 2147483648) : durationOf num = digits num 0 := by
  rw [durationOf, if_neg (colon_not_mem h), atol_of_digits h]
  omega

theorem durationOf_clock {h m : List Char} (hh : ∀ c ∈ h, c.isDigit = true)
    (hm : ∀ c ∈ m, c.isDigit = true)
    (hfits : digits h 0 * 3600 + digits m 0 * 60 < 2147483648) :
    durationOf (h ++ ':' :: m) = (digits h 0 * 3600 + digits m 0 * 60 : Nat) := by
  have hbefore : ∀ c ∈ h, decide (c ≠ ':') = true := by
    intro c hc
    rw [decide_eq_true_eq]
    rintro rfl
    exact colon_not_mem hh hc
  have hhour : toLong (min 2147483647 (digits h 0 : Int) * 3600) = digits h 0 * 3600 := by
    rw [toLong_eq] <;> omega
  have hminute : toLong (min 2147483647 (digits m 0 : Int) * 60) = digits m 0 * 60 := by
    rw [toLong_eq] <;> omega
  rw [durationOf, if_pos (by simp), List.takeWhile_append_of_pos hbefore,
    List.dropWhile_append_of_pos hbefore, List.takeWhile_cons_of_neg (by simp),
    List.dropWhile_cons_of_neg (by simp), List.append_nil, List.drop_one, List.tail_cons,
    atol_of_digits hh, atol_of_digits hm, hhour, hminute, toLong_eq] <;> omega

/-- A time in hours and minutes is read off its first 19 characters. -/
theorem durationOf_take (hh mm : Digits) (hfits : DefaultDuration.clockCut hh mm < 2147483648) :
    durationOf ((hh.chars ++ ':' :: mm.chars).take 19) = DefaultDuration.clockCut hh mm := by
  unfold DefaultDuration.clockCut at hfits ⊢
  by_cases hlong : 19 ≤ hh.chars.length
  · rw [if_pos hlong] at hfits ⊢
    rw [List.take_append_of_le_length hlong]
    exact durationOf_digits (fun c hc => hh.isDigit c (List.mem_of_mem_take hc)) hfits
  · rw [if_neg hlong] at hfits ⊢
    rw [List.take_append, List.take_of_length_le (by omega),
      show 19 - hh.chars.length = (18 - hh.chars.length) + 1 by omega, List.take_succ_cons]
    exact durationOf_clock hh.isDigit (fun c hc => mm.isDigit c (List.mem_of_mem_take hc)) hfits

/-- While it fits a `long`, the encoded default is the value of the first 19 characters, negative
for a time of day. -/
theorem getConfigOptionDuration_eq (d : DefaultDuration) (hfits : d.cutValue < 2147483648) :
    getConfigOptionDuration d = if d.absoluteTime then -(d.cutValue : Int) else d.cutValue := by
  have hdur : durationOf (d.text.take 19) = d.cutValue := by
    cases d with
    | seconds n =>
        exact durationOf_digits (fun c hc => n.isDigit c (List.mem_of_mem_take hc)) hfits
    | relative hh mm => exact durationOf_take hh mm hfits
    | absolute hh mm hour minute => exact durationOf_take hh mm hfits
  rw [getConfigOptionDuration, hdur]
  split
  · rw [toLong_eq] <;> omega
  · rfl

/-- A time of day is a whole minute before midnight. -/
theorem absolute_value {d : DefaultDuration} (h : d.absoluteTime = true) :
    d.value < 86400 ∧ d.value % 60 = 0 := by
  cases d with
  | seconds n => cases h
  | relative hh mm => cases h
  | absolute hh mm hour minute =>
      simp only [DefaultDuration.value]
      omega

/-! ## The right time -/

def askedSeconds (text : String) : Int :=
  match text.toList.dropWhile isSpace with
  | '-' :: rest => -(digits rest 0 : Int)
  | '+' :: rest => digits rest 0
  | rest => digits rest 0

theorem atoi_eq_asked (text : String) :
    atoi text = max (-2147483648) (min 2147483647 (askedSeconds text)) := by
  unfold atoi
  split
  · rename_i rest htext
    rw [askedSeconds, htext]
    show max (-2147483648) (-(digits rest 0 : Int)) = max _ (min _ (-(digits rest 0 : Int)))
    omega
  · rename_i rest htext
    rw [askedSeconds, htext]
    show min 2147483647 (digits rest 0 : Int) = max _ (min _ (digits rest 0 : Int))
    omega
  · rename_i hminus hplus
    have hasked : askedSeconds text = digits (text.toList.dropWhile isSpace) 0 := by
      unfold askedSeconds
      split
      · rename_i htext
        exact (hminus _ htext).elim
      · rename_i htext
        exact (hplus _ htext).elim
      · rfl
    rw [hasked]
    omega

/-- The first moment at least a minute ahead at which the local clock stands at a time of day. -/
structure FirstShown (utcOffset curtime : Int) (clock : Nat) (t : Int) : Prop where
  ahead : curtime + 60 ≤ t
  shown : curclock utcOffset t = clock
  first : ∀ u, curtime + 60 ≤ u → curclock utcOffset u = clock → t ≤ u

/-- The seconds until then. -/
def untilShown (utcOffset curtime : Int) (clock : Nat) : Int :=
  let diff := clock - curclock utcOffset curtime
  if diff < 60 then diff + 86400 else diff

section

variable {utcOffset curtime : Int}

theorem curclock_bounds (utcOffset curtime : Int) :
    0 ≤ curclock utcOffset curtime ∧ curclock utcOffset curtime < 86400 := by
  unfold curclock
  omega

theorem untilShown_bounds (utcOffset curtime : Int) {clock : Nat} (h : clock < 86400) :
    0 < untilShown utcOffset curtime clock ∧ untilShown utcOffset curtime clock < 86460 := by
  have hcur := curclock_bounds utcOffset curtime
  unfold untilShown
  dsimp only
  split <;> omega

theorem curclock_untilShown {clock : Nat} (h : clock < 86400) :
    curclock utcOffset (curtime + untilShown utcOffset curtime clock) = clock := by
  unfold untilShown curclock
  dsimp only
  split <;> omega

/-- A whole minute other than midnight is never less than a minute ahead once a day is added. -/
theorem untilShown_firstShown (utcOffset curtime : Int) {clock : Nat} (h : clock < 86400)
    (hminute : clock % 60 = 0) (hne : clock ≠ 0) :
    FirstShown utcOffset curtime clock (curtime + untilShown utcOffset curtime clock) where
  ahead := by
    have hcur := curclock_bounds utcOffset curtime
    unfold untilShown
    dsimp only
    split <;> omega
  shown := curclock_untilShown h
  first u hahead hshown := by
    have hcur := curclock_bounds utcOffset curtime
    unfold untilShown
    unfold curclock at *
    dsimp only
    split <;> omega

theorem FirstShown.unique {clock : Nat} {t u : Int} (ht : FirstShown utcOffset curtime clock t)
    (hu : FirstShown utcOffset curtime clock u) : t = u :=
  Int.le_antisymm (ht.first u hu.ahead hu.shown) (hu.first t ht.ahead ht.shown)

/-! ### The four ways out of the scheduler -/

theorem expirationTime_lease {lease duration : Int} (h : 0 < lease) :
    expirationTime utcOffset curtime lease duration = some (toLong (curtime + lease)) := by
  rw [expirationTime, if_pos h]

theorem expirationTime_zero {lease : Int} (h : lease ≤ 0) :
    expirationTime utcOffset curtime lease 0 = none := by
  rw [expirationTime, if_neg (by omega), if_pos rfl]

theorem expirationTime_relative {lease duration : Int} (h : lease ≤ 0) (hpos : 0 < duration) :
    expirationTime utcOffset curtime lease duration = some (toLong (curtime + duration)) := by
  rw [expirationTime, if_neg (by omega), if_neg (by omega), if_pos hpos]

theorem expirationTime_absolute {lease : Int} {clock : Nat} (h : lease ≤ 0) (hpos : 0 < clock)
    (hclock : clock < 86400) :
    expirationTime utcOffset curtime lease (-(clock : Int)) =
      some (toLong (curtime + untilShown utcOffset curtime clock)) := by
  have hcur := curclock_bounds utcOffset curtime
  have hexp : toLong (-1 * -(clock : Int)) = clock := by
    rw [toLong_eq] <;> omega
  have hdiff : toLong (clock - curclock utcOffset curtime) = clock - curclock utcOffset curtime :=
    toLong_eq (by omega) (by omega)
  rw [expirationTime, if_neg (by omega), if_neg (by omega), if_neg (by omega)]
  simp only [hexp, hdiff, untilShown]
  split
  · rw [toLong_eq (n := _ + 24 * 60 * 60) (by omega) (by omega)]
    rfl
  · rfl

theorem expirationTime_lt {lease duration t : Int}
    (h : expirationTime utcOffset curtime lease duration = some t) : t < 2147483648 := by
  unfold expirationTime at h
  split at h
  · exact Option.some.inj h ▸ toLong_lt _
  · split at h
    · cases h
    · split at h
      · exact Option.some.inj h ▸ toLong_lt _
      · exact Option.some.inj h ▸ toLong_lt _

end

structure ExpiryRight (utcOffset curtime : Int) (leaseText : String) (d : DefaultDuration)
    (result : Option Int) : Prop where
  asked : 0 < askedSeconds leaseText → result = some (curtime + askedSeconds leaseText)
  relative : askedSeconds leaseText ≤ 0 → d.absoluteTime = false → d.value ≠ 0 →
    result = some (curtime + d.value)
  absolute : askedSeconds leaseText ≤ 0 → d.absoluteTime = true →
    ∃ t, result = some t ∧ FirstShown utcOffset curtime d.value t
  future : ∀ t, result = some t → curtime < t
  never : result = none ↔
    askedSeconds leaseText ≤ 0 ∧ d.absoluteTime = false ∧ d.value = 0

/-- The moment is one that `time_t` can hold, the first 19 characters of a default say the same as
all of them, and a daily default is not midnight. -/
structure ExpiryFits (utcOffset curtime : Int) (leaseText : String) (d : DefaultDuration) :
    Prop where
  asked : 0 < askedSeconds leaseText → curtime + askedSeconds leaseText < 2147483648
  relative : askedSeconds leaseText ≤ 0 → d.absoluteTime = false →
    d.cutValue = d.value ∧ curtime + d.value < 2147483648
  absolute : askedSeconds leaseText ≤ 0 → d.absoluteTime = true →
    d.cutValue = d.value ∧ d.value ≠ 0 ∧
      ∀ t, FirstShown utcOffset curtime d.value t → t < 2147483648

section

variable {utcOffset curtime : Int} {leaseText : String} {d : DefaultDuration}

/-- A client that asks for no time gets the default. -/
theorem lease_nonpos (h : askedSeconds leaseText ≤ 0) : atoi leaseText ≤ 0 := by
  rw [atoi_eq_asked]
  omega

theorem lease_eq (h : 0 < askedSeconds leaseText) (hfits : askedSeconds leaseText < 2147483648) :
    atoi leaseText = askedSeconds leaseText := by
  rw [atoi_eq_asked]
  omega

theorem default_relative (utcOffset curtime : Int) (hlease : askedSeconds leaseText ≤ 0)
    (hrel : d.absoluteTime = false) (hfits : d.cutValue < 2147483648) :
    expirationTime utcOffset curtime (atoi leaseText) (getConfigOptionDuration d) =
      if d.cutValue = 0 then none else some (toLong (curtime + d.cutValue)) := by
  rw [getConfigOptionDuration_eq d hfits, hrel, if_neg Bool.false_ne_true]
  by_cases hzero : d.cutValue = 0
  · rw [if_pos hzero, hzero]
    exact expirationTime_zero (lease_nonpos hlease)
  · rw [if_neg hzero]
    exact expirationTime_relative (lease_nonpos hlease) (by omega)

theorem default_absolute (utcOffset curtime : Int) (hlease : askedSeconds leaseText ≤ 0)
    (habs : d.absoluteTime = true) :
    expirationTime utcOffset curtime (atoi leaseText) (getConfigOptionDuration d) =
      if d.cutValue = 0 then none
      else some (toLong (curtime + untilShown utcOffset curtime d.cutValue)) := by
  have hle := cutValue_le d
  have hclock := (absolute_value habs).1
  rw [getConfigOptionDuration_eq d (by omega), habs, if_pos rfl]
  by_cases hzero : d.cutValue = 0
  · rw [if_pos hzero, hzero]
    exact expirationTime_zero (lease_nonpos hlease)
  · rw [if_neg hzero]
    exact expirationTime_absolute (lease_nonpos hlease) (by omega) (by omega)

/-- A sum that wraps is before the moment it starts from. -/
theorem toLong_add_eq {n : Int} (hcur : 0 ≤ curtime) (hcur' : curtime < 2147483648) (hn : 0 ≤ n)
    (hn' : n < 2147483648) (h : curtime ≤ toLong (curtime + n)) :
    toLong (curtime + n) = curtime + n := by
  unfold toLong at *
  omega

theorem ExpiryRight.fits (hcur : 0 ≤ curtime) (hcur' : curtime < 2147483648)
    (h : ExpiryRight utcOffset curtime leaseText d
      (expirationTime utcOffset curtime (atoi leaseText) (getConfigOptionDuration d))) :
    ExpiryFits utcOffset curtime leaseText d where
  asked hasked := expirationTime_lt (h.asked hasked)
  relative hlease hrel := by
    have hle := cutValue_le d
    by_cases hzero : d.value = 0
    · omega
    · have hresult := h.relative hlease hrel hzero
      have hlt := expirationTime_lt hresult
      rw [default_relative utcOffset curtime hlease hrel (by omega)] at hresult
      split at hresult
      · cases hresult
      · have heq := Option.some.inj hresult
        rw [toLong_add_eq hcur hcur' (by omega) (by omega) (by omega)] at heq
        omega
  absolute hlease habs := by
    have hle := cutValue_le d
    obtain ⟨hclock, -⟩ := absolute_value habs
    obtain ⟨t, hresult, hshown⟩ := h.absolute hlease habs
    have hlt := expirationTime_lt hresult
    rw [default_absolute utcOffset curtime hlease habs] at hresult
    split at hresult
    · cases hresult
    · rename_i hzero
      have hbounds := untilShown_bounds utcOffset curtime
        (show d.cutValue < 86400 by omega)
      have hahead := hshown.ahead
      have heq := Option.some.inj hresult
      rw [toLong_add_eq hcur hcur' (by omega) (by omega) (by omega)] at heq
      have hclockEq : (d.cutValue : Int) = d.value := by
        rw [← hshown.shown, ← heq]
        exact (curclock_untilShown (by omega)).symm
      refine ⟨by omega, by omega, fun u hu => ?_⟩
      rw [← hshown.unique hu]
      exact hlt

theorem ExpiryFits.right (hcur : 0 ≤ curtime) (h : ExpiryFits utcOffset curtime leaseText d) :
    ExpiryRight utcOffset curtime leaseText d
      (expirationTime utcOffset curtime (atoi leaseText) (getConfigOptionDuration d)) := by
  by_cases hasked : 0 < askedSeconds leaseText
  · have hlt := h.asked hasked
    have hresult : expirationTime utcOffset curtime (atoi leaseText) (getConfigOptionDuration d) =
        some (curtime + askedSeconds leaseText) := by
      rw [lease_eq hasked (by omega), expirationTime_lease hasked, toLong_eq (by omega) hlt]
    rw [hresult]
    constructor
    · exact fun _ => rfl
    · intro hlease
      omega
    · intro hlease
      omega
    · intro t ht
      have heq := Option.some.inj ht
      omega
    · simp
      omega
  · have hlease : askedSeconds leaseText ≤ 0 := by omega
    cases habs : d.absoluteTime with
    | false =>
        obtain ⟨hcut, hlt⟩ := h.relative hlease habs
        have hresult := default_relative utcOffset curtime hlease habs
          (show d.cutValue < 2147483648 by omega)
        rw [hresult, hcut]
        constructor
        · exact fun hpos => absurd hpos hasked
        · intro _ _ hne
          rw [if_neg hne, toLong_eq (by omega) hlt]
        · intro _ htrue
          rw [habs] at htrue
          cases htrue
        · intro t ht
          split at ht
          · cases ht
          · have heq := Option.some.inj ht
            rw [toLong_eq (by omega) hlt] at heq
            omega
        · simp [hlease, habs]
    | true =>
        obtain ⟨hcut, hne, hfirst⟩ := h.absolute hlease habs
        obtain ⟨hclock, hminute⟩ := absolute_value habs
        have hshown := untilShown_firstShown utcOffset curtime hclock hminute hne
        have hlt := hfirst _ hshown
        have hahead := hshown.ahead
        have hresult := default_absolute utcOffset curtime hlease habs
        rw [hcut, if_neg hne, toLong_eq (by omega) hlt] at hresult
        rw [hresult]
        constructor
        · exact fun hpos => absurd hpos hasked
        · intro _ hfalse
          rw [habs] at hfalse
          cases hfalse
        · exact fun _ _ => ⟨_, rfl, hshown⟩
        · intro t ht
          have heq := Option.some.inj ht
          omega
        · simp [habs]

end

/-- The scheduler sets the right time exactly when that time fits `time_t` and the default is
encoded faithfully. -/
theorem expiryRight_iff (utcOffset : Int) (curtime : Fin (2 ^ 31)) (leaseText : String)
    (d : DefaultDuration) :
    ExpiryRight utcOffset curtime.val leaseText d
      (expirationTime utcOffset curtime.val (atoi leaseText) (getConfigOptionDuration d)) ↔
    ExpiryFits utcOffset curtime.val leaseText d := by
  have hlt := curtime.isLt
  constructor
  · exact fun h => h.fits (by omega) (by omega)
  · exact fun h => h.right (by omega)

/-- `00:00` -/
def zeroDigits : Digits := ⟨['0', '0'], by simp, by simp⟩

/-- The default `@00:00` leaves a mapping without expiration, and a lease of 2147483647 seconds
expires in the past. -/
theorem expiry_missed :
    ¬ ExpiryRight 0 1000000000 "0" (.absolute zeroDigits zeroDigits (by decide) (by decide))
      (expirationTime 0 1000000000 (atoi "0")
        (getConfigOptionDuration (.absolute zeroDigits zeroDigits (by decide) (by decide)))) ∧
    ¬ ExpiryRight 0 1000000000 "2147483647" (.seconds zeroDigits)
      (expirationTime 0 1000000000 (atoi "2147483647")
        (getConfigOptionDuration (.seconds zeroDigits))) := by
  constructor
  · intro h
    exact absurd ((h.fits (by decide) (by decide)).absolute (by decide) rfl).2.1 (by decide)
  · intro h
    exact absurd ((h.fits (by decide) (by decide)).asked (by decide)) (by decide)

end Xwr100.Upnp
