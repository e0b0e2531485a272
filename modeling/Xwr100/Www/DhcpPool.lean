import Xwr100.Www.FieldChecks
import Xwr100.Www.MacField

/-! # The address pool of the LAN page

`check_clientNumber`, `AssembleDhcpStartAddress` and `AssembleDhcpEndAddress` of `dhcp.js`.  The
first reads the number of users with `parseInt` and no radix, the last with radix 10.  An engine is
meant that takes a leading zero for nothing and `0x` for a hexadecimal number.
-/

namespace Xwr100.Www.DhcpPool

open EditList

/-- The form: `lan_ipaddr_4` is the router's own octet. -/
structure Fields where
  selNetmask : Text
  lanIpaddr4 : Text
  startIP : Text
  numOfUsers : Text

/-- What the user is told, with the number of the text and the numbers shown beside it. -/
inductive Refusal
  | lanRange -- JavaScript 125 [1-254]
  | lanNetwork (localip : Option Int) -- JavaScript 57
  | lanBroadcast (localip : Option Int) -- JavaScript 59
  | startLan -- JavaScript 55
  | startRange (first last : Option Int) -- JavaScript 60
  | usersBehind (client : Option Int) -- JavaScript 61
  | usersRange (client : Option Int) -- JavaScript 125
  | start (alert : FieldChecks.Alert)
  | usersNumber -- JavaScript 53
  | usersEnd (net_end : Option Int) -- JavaScript 56
  deriving DecidableEq

/-! ## Numbers that may be none -/

def plus (x y : Option Int) : Option Int := x.bind fun x => y.map fun y => x + y

def minus (x y : Option Int) : Option Int := x.bind fun x => y.map fun y => x - y

def less (x y : Option Int) : Bool := compareNumbers (fun x y => x < y) x y

def equal (x y : Option Int) : Bool := compareNumbers (fun x y => x == y) x y

/-- `x & y` -/
def bitAnd (x y : Option Int) : Int := (MacField.toInt32 x &&& MacField.toInt32 y).toInt

/-- A text that is compared with a number; the pages compare rows of digits only. -/
def numberOf (t : Text) : Option Int := (wholeNumber t).map fun n : Nat => (n : Int)

/-! ## The subnet -/

def netmask (f : Fields) : Option Int := parseIntBare false (getSegment '.' f.selNetmask 4)

def client (f : Fields) : Option Int := minus (some 255) (netmask f)

def localip (f : Fields) : Option Int := parseIntBare false f.lanIpaddr4

def netStart (f : Fields) : Option Int := some (bitAnd (netmask f) (localip f) + 1)

def netEnd (f : Fields) : Option Int := minus (plus (netStart f) (client f)) (some 1)

/-! ## The checks -/

def checkClientNumber (f : Fields) : Option Refusal :=
  let start := parseIntBare false f.startIP
  let users := parseIntBare false f.numOfUsers
  let behind := minus (netEnd f) start
  if less (localip f) (some 1) || less (some 254) (localip f) then some .lanRange
  else if equal (localip f) (minus (netStart f) (some 1)) then some (.lanNetwork (localip f))
  else if equal (localip f) (netEnd f) then some (.lanBroadcast (localip f))
  else if equal start (localip f) then some .startLan
  else if less start (netStart f) || less (netEnd f) start then
    some (.startRange (netStart f) (minus (netEnd f) (some 1)))
  else if less (netEnd f) (plus start users) then some (.usersBehind behind)
  else if less users (some 1) || less (some 254) users then some (.usersRange behind)
  else none

/-- `AssembleDhcpStartAddress`: the stored start, or the form after a refusal. -/
def assembleDhcpStartAddress (f : Fields) : Except (Refusal × Fields) Text :=
  match FieldChecks.ipCheck f.startIP with
  | some alert => .error (.start alert, { f with startIP := ['0'] })
  | none => .ok f.startIP

/-- `AssembleDhcpEndAddress`: the stored end, or the form after a refusal. -/
def assembleDhcpEndAddress (f : Fields) : Except (Refusal × Fields) (Option Int) :=
  let start := parseIntBare false f.startIP
  let d := parseInt f.numOfUsers
  let tmp := plus start d
  if d = none then .error (.usersNumber, f)
  else if less (netEnd f) tmp then
    .error (.usersEnd (netEnd f), { f with numOfUsers := ['0'] })
  else
    let d := minus tmp (some 1)
    .ok (if less d (numberOf f.startIP) then start else d)

/-! ## The pool as it should be -/

/-- The last octet of the masks that can be chosen. -/
def masks : List Nat := [0, 128, 192, 224, 240, 248, 252]

def maskText (m : Nat) : Text := "255.255.255.".toList ++ showNumber m

/-- The address of the network around an octet, and the broadcast address. -/
def network (m lan : Nat) : Nat := lan / (256 - m) * (256 - m)

def broadcast (m lan : Nat) : Nat := network m lan + (255 - m)

/-- The pool from `s` to `e` is as large as the number of users and within the subnet. -/
structure PoolFits (m lan s e : Nat) (users : Option Int) : Prop where
  size : s ≤ e ∧ users = some (e - s + 1 : Int)
  inside : network m lan < s ∧ e < broadcast m lan
  router : lan ≠ network m lan ∧ lan ≠ broadcast m lan

def PoolRight (m lan : Nat) (f : Fields) : Prop :=
  ∀ dhcp_start dhcp_end, checkClientNumber f = none →
    assembleDhcpStartAddress f = .ok dhcp_start → assembleDhcpEndAddress f = .ok dhcp_end →
    ∃ s e : Nat, wholeNumber dhcp_start = some s ∧ dhcp_end = some (e : Int) ∧
      PoolFits m lan s e (parseIntBare false f.numOfUsers)

/-! ## The two ways to read the users -/

def marked : Text → Bool
  | '0' :: 'x' :: _ => true
  | '0' :: 'X' :: _ => true
  | _ => false

/-- A hexadecimal number behind white space and a sign. -/
def hexMarked (t : Text) : Bool :=
  match t.dropWhile isSpace with
  | '-' :: rest => marked rest
  | '+' :: rest => marked rest
  | rest => marked rest

theorem unsignedInt_of_not_marked {t : Text} (h : marked t = false) :
    unsignedInt false t = leadingNumber t := by
  unfold unsignedInt
  split
  · cases h
  · cases h
  · exact numberIn_ten _
  · exact numberIn_ten _

theorem leadingNumber_of_marked {t : Text} (h : marked t = true) : leadingNumber t = some 0 := by
  unfold marked at h
  split at h
  · rfl
  · rfl
  · cases h

theorem hexMarked_noSign {t : Text} (hminus : ∀ rest, t.dropWhile isSpace ≠ '-' :: rest)
    (hplus : ∀ rest, t.dropWhile isSpace ≠ '+' :: rest) :
    hexMarked t = marked (t.dropWhile isSpace) := by
  unfold hexMarked
  split
  · next heq => exact absurd heq (hminus _)
  · next heq => exact absurd heq (hplus _)
  · rfl

/-- A sign behind the white space, or none. -/
theorem sign_cases (t : Text) : (∃ rest, t.dropWhile isSpace = '-' :: rest) ∨
    (∃ rest, t.dropWhile isSpace = '+' :: rest) ∨
    (∀ rest, t.dropWhile isSpace ≠ '-' :: rest) ∧ ∀ rest, t.dropWhile isSpace ≠ '+' :: rest := by
  by_cases hminus : ∃ rest, t.dropWhile isSpace = '-' :: rest
  · exact Or.inl hminus
  · by_cases hplus : ∃ rest, t.dropWhile isSpace = '+' :: rest
    · exact Or.inr (Or.inl hplus)
    · exact Or.inr (Or.inr ⟨not_exists.mp hminus, not_exists.mp hplus⟩)

/-- Without a marker the radix makes no difference. -/
theorem parseIntBare_of_not_marked {t : Text} (h : hexMarked t = false) :
    parseIntBare false t = parseInt t := by
  rcases sign_cases t with ⟨rest, heq⟩ | ⟨rest, heq⟩ | ⟨hminus, hplus⟩
  · have hrest : marked rest = false := by simpa [hexMarked, heq] using h
    simp [parseIntBare, parseInt, heq, unsignedInt_of_not_marked hrest]
  · have hrest : marked rest = false := by simpa [hexMarked, heq] using h
    simp [parseIntBare, parseInt, heq, unsignedInt_of_not_marked hrest]
  · rw [hexMarked_noSign hminus hplus] at h
    rw [parseIntBare_noSign hminus hplus, parseInt_noSign hminus hplus,
      unsignedInt_of_not_marked h]

theorem parseInt_of_marked {t : Text} (h : hexMarked t = true) : parseInt t = some 0 := by
  rcases sign_cases t with ⟨rest, heq⟩ | ⟨rest, heq⟩ | ⟨hminus, hplus⟩
  · have hrest : marked rest = true := by simpa [hexMarked, heq] using h
    simp [parseInt, heq, leadingNumber_of_marked hrest]
  · have hrest : marked rest = true := by simpa [hexMarked, heq] using h
    simp [parseInt, heq, leadingNumber_of_marked hrest]
  · rw [hexMarked_noSign hminus hplus] at h
    rw [parseInt_noSign hminus hplus, leadingNumber_of_marked h]
    rfl

/-! ## The numbers of the subnet -/

theorem lt_of_mem_masks {m : Nat} (hm : m ∈ masks) : m < 256 := by
  revert m
  decide

theorem netmask_eq {m : Nat} {f : Fields} (hm : m ∈ masks) (hmask : f.selNetmask = maskText m) :
    netmask f = some (m : Int) := by
  have hparse : ∀ m ∈ masks,
      parseIntBare false (getSegment '.' (maskText m) 4) = some (m : Int) := by
    decide +kernel
  rw [netmask, hmask, hparse m hm]

theorem bitAnd_of_small {x y : Nat} (hx : x < 256) (hy : y < 256) :
    bitAnd (some (x : Int)) (some (y : Int)) = ((x &&& y : Nat) : Int) := by
  have hand : x &&& y ≤ x := Nat.and_le_left
  have hnat : ∀ z : Nat, z < 256 → (MacField.toInt32 (some (z : Int))).toNat = z := by
    intro z hz
    rw [MacField.toInt32, BitVec.toNat_ofInt]
    simp
    omega
  have htoNat : (MacField.toInt32 (some (x : Int)) &&& MacField.toInt32 (some (y : Int))).toNat =
      x &&& y := by
    rw [BitVec.toNat_and, hnat x hx, hnat y hy]
  rw [bitAnd, BitVec.toInt_eq_toNat_of_lt (by rw [htoNat]; omega), htoNat]

theorem and_mask : ∀ m ∈ masks, ∀ lan < 256, m &&& lan = network m lan := by decide +kernel

theorem netStart_eq {m lan : Nat} {f : Fields} (hm : m ∈ masks)
    (hmask : f.selNetmask = maskText m) (hlan : localip f = some (lan : Int)) (hle : lan < 256) :
    netStart f = some (network m lan + 1 : Int) := by
  rw [netStart, netmask_eq hm hmask, hlan, bitAnd_of_small (lt_of_mem_masks hm) hle,
    and_mask m hm lan hle]

theorem netEnd_eq {m lan : Nat} {f : Fields} (hm : m ∈ masks)
    (hmask : f.selNetmask = maskText m) (hlan : localip f = some (lan : Int)) (hle : lan < 256) :
    netEnd f = some (broadcast m lan : Int) := by
  have hlt := lt_of_mem_masks hm
  rw [netEnd, netStart_eq hm hmask hlan hle, client, netmask_eq hm hmask, broadcast]
  simp only [minus, plus, Option.bind_some, Option.map_some, Option.some.injEq]
  omega

/-! ## What is accepted -/

/-- What `check_clientNumber` makes sure of; a number of users that is none passes. -/
structure Admitted (m lan s : Nat) (users : Option Int) : Prop where
  octet : 1 ≤ lan ∧ lan ≤ 254
  router : lan ≠ network m lan ∧ lan ≠ broadcast m lan
  start : s ≠ lan ∧ network m lan < s ∧ s ≤ broadcast m lan
  count : ∀ h, users = some h → s + h ≤ broadcast m lan ∧ 1 ≤ h ∧ h ≤ 254

theorem refuse_eq_none {c : Bool} {r : Refusal} {rest : Option Refusal} :
    (if c then some r else rest) = none ↔ c = false ∧ rest = none := by
  cases c <;> simp

theorem less_some {x y : Int} : less (some x) (some y) = false ↔ y ≤ x := by
  simp [less, compareNumbers]

theorem less_none (x : Option Int) : less x none = false := by
  cases x <;> rfl

theorem none_less (x : Option Int) : less none x = false := rfl

theorem equal_some {x y : Int} : equal (some x) (some y) = false ↔ x ≠ y := by
  simp [equal, compareNumbers]

theorem localip_eq {lan : Nat} {f : Fields} (hlan : wholeNumber f.lanIpaddr4 = some lan) :
    localip f = some (lan : Int) := parseIntBare_decimal hlan

theorem checkClientNumber_eq_none {m lan s : Nat} {f : Fields} (hm : m ∈ masks)
    (hmask : f.selNetmask = maskText m) (hlan : wholeNumber f.lanIpaddr4 = some lan)
    (hs : wholeNumber f.startIP = some s) :
    checkClientNumber f = none ↔ Admitted m lan s (parseIntBare false f.numOfUsers) := by
  have hlocal := localip_eq hlan
  unfold checkClientNumber
  dsimp only
  simp only [refuse_eq_none, Bool.or_eq_false_iff]
  rw [hlocal, parseIntBare_decimal hs]
  by_cases hle : lan < 256
  · rw [netStart_eq hm hmask hlocal hle, netEnd_eq hm hmask hlocal hle]
    cases husers : parseIntBare false f.numOfUsers with
    | none =>
        simp only [less_some, less_none, none_less, equal_some, minus, plus, Option.bind_some,
          Option.map_some, Option.map_none, and_true]
        constructor
        · intro h
          exact ⟨by omega, by omega, by omega, fun n hn => by cases hn⟩
        · intro h
          have hoctet := h.octet
          have hrouter := h.router
          have hstart := h.start
          omega
    | some n =>
        simp only [less_some, equal_some, minus, plus, Option.bind_some, Option.map_some, and_true]
        constructor
        · intro h
          refine ⟨by omega, by omega, by omega, ?_⟩
          intro k hk
          obtain rfl := Option.some.inj hk
          omega
        · intro h
          have hoctet := h.octet
          have hrouter := h.router
          have hstart := h.start
          have hcount := h.count n rfl
          omega
  · refine iff_of_false ?_ fun h => by have := h.octet; omega
    intro h
    have hfirst := less_some.mp h.1.2
    omega

theorem assembleDhcpStartAddress_eq_ok {f : Fields} {t : Text} :
    assembleDhcpStartAddress f = .ok t ↔
      t = f.startIP ∧ ∃ s, wholeNumber f.startIP = some s ∧ 1 ≤ s ∧ s ≤ 254 := by
  have hcheck : FieldChecks.ipCheck f.startIP = none ↔
      ∃ s, wholeNumber f.startIP = some s ∧ 1 ≤ s ∧ s ≤ 254 := FieldChecks.numberCheck_eq_none
  rw [← hcheck]
  unfold assembleDhcpStartAddress
  cases FieldChecks.ipCheck f.startIP with
  | some alert => simp
  | none => simp [eq_comm]

theorem assembleDhcpEndAddress_eq_ok {m lan s : Nat} {f : Fields} (hm : m ∈ masks)
    (hmask : f.selNetmask = maskText m) (hlan : wholeNumber f.lanIpaddr4 = some lan)
    (hle : lan < 256) (hs : wholeNumber f.startIP = some s) {e : Option Int} :
    assembleDhcpEndAddress f = .ok e ↔ ∃ d, parseInt f.numOfUsers = some d ∧
      s + d ≤ broadcast m lan ∧ e = some (if d ≤ 0 then (s : Int) else s + d - 1) := by
  unfold assembleDhcpEndAddress
  dsimp only
  rw [netEnd_eq hm hmask (localip_eq hlan) hle, parseIntBare_decimal hs, numberOf, hs]
  cases parseInt f.numOfUsers with
  | none => simp
  | some d =>
      have hsum : plus (some (s : Int)) (some d) = some (s + d) := rfl
      have hless : less (some (s + d - 1)) (some (s : Int)) = decide (d ≤ 0) := by
        rw [less, compareNumbers, decide_eq_decide]
        omega
      have hback : minus (some ((s : Int) + d)) (some 1) = some (s + d - 1) := rfl
      rw [hsum, if_neg (Option.some_ne_none d), Option.map_some, hback, hless]
      by_cases hbehind : (s : Int) + d ≤ broadcast m lan
      · rw [less_some.mpr hbehind]
        by_cases hclamp : d ≤ 0
        · simp [hbehind, hclamp, eq_comm]
        · simp [hbehind, hclamp, eq_comm]
      · have hrefused : less (some (broadcast m lan : Int)) (some (s + d)) = true := by
          rw [← Bool.not_eq_false, less_some]
          exact hbehind
        rw [hrefused]
        simp [hbehind]

/-! ## When the pool is right -/

/-- A number of users with the marker of a hexadecimal number, which is not one user, in a form that
is otherwise in order. -/
structure Misread (m lan : Nat) (f : Fields) : Prop where
  marked : hexMarked f.numOfUsers = true
  notOne : parseIntBare false f.numOfUsers ≠ some 1
  start : ∃ s, wholeNumber f.startIP = some s ∧ 1 ≤ s ∧ s ≤ 254 ∧
    Admitted m lan s (parseIntBare false f.numOfUsers)

/-- The pool is the start alone if the number of users is read as zero. -/
theorem Misread.not_poolRight {m lan : Nat} {f : Fields} (h : Misread m lan f) (hm : m ∈ masks)
    (hmask : f.selNetmask = maskText m) (hlan : wholeNumber f.lanIpaddr4 = some lan) :
    ¬PoolRight m lan f := by
  intro hright
  obtain ⟨s, hs, h1, h254, hadmitted⟩ := h.start
  have hle : lan < 256 := by
    have hoctet := hadmitted.octet
    omega
  have hcheck := (checkClientNumber_eq_none hm hmask hlan hs).mpr hadmitted
  have hstart := assembleDhcpStartAddress_eq_ok.mpr ⟨rfl, s, hs, h1, h254⟩
  have hzero := parseInt_of_marked h.marked
  have hend := (assembleDhcpEndAddress_eq_ok hm hmask hlan hle hs).mpr
    ⟨0, hzero, by have hrange := hadmitted.start; omega, rfl⟩
  obtain ⟨s', e, hs', he, hfits⟩ := hright _ _ hcheck hstart hend
  obtain rfl := Option.some.inj (hs.symm.trans hs')
  have hone : (s : Int) = e := Option.some.inj he
  apply h.notOne
  rw [hfits.size.2, hone]
  congr 1
  omega

/-- A pool as large as the number of users fits if that number was admitted. -/
theorem Admitted.fits {m lan s n : Nat} {users : Option Int} (h : Admitted m lan s users)
    (husers : users = some (n : Int)) : 0 < n ∧ PoolFits m lan s (s + n - 1) users := by
  have hcount := h.count n husers
  have hstart := h.start
  refine ⟨by omega, ⟨by omega, ?_⟩, ⟨hstart.2.1, by omega⟩, h.router⟩
  rw [husers]
  congr 1
  omega

/-- The pool has the validated number of users and lies within the subnet exactly if that number was
not read twice in two ways. -/
theorem pool_right_iff {m lan : Nat} {f : Fields} (hm : m ∈ masks)
    (hmask : f.selNetmask = maskText m) (hlan : wholeNumber f.lanIpaddr4 = some lan) :
    PoolRight m lan f ↔ ¬Misread m lan f := by
  constructor
  · intro hright hmisread
    exact hmisread.not_poolRight hm hmask hlan hright
  · intro hread dhcp_start dhcp_end hcheck hstart hend
    obtain ⟨rfl, s, hs, h1, h254⟩ := assembleDhcpStartAddress_eq_ok.mp hstart
    have hadmitted := (checkClientNumber_eq_none hm hmask hlan hs).mp hcheck
    have hle : lan < 256 := by
      have hoctet := hadmitted.octet
      omega
    obtain ⟨d, hd, hbehind, rfl⟩ :=
      (assembleDhcpEndAddress_eq_ok hm hmask hlan hle hs).mp hend
    by_cases hmarked : hexMarked f.numOfUsers = true
    · -- one user is read as zero in base ten, and the end is then the start
      have hone : parseIntBare false f.numOfUsers = some (1 : Nat) := by
        by_contra hne
        exact hread ⟨hmarked, hne, s, hs, h1, h254, hadmitted⟩
      obtain ⟨-, hfits⟩ := hadmitted.fits hone
      obtain rfl := Option.some.inj (hd.symm.trans (parseInt_of_marked hmarked))
      exact ⟨s, s, hs, rfl, hfits⟩
    · have hsame : parseIntBare false f.numOfUsers = some d := by
        rw [parseIntBare_of_not_marked (by simpa using hmarked), hd]
      have hcount := hadmitted.count d hsame
      obtain ⟨n, rfl⟩ := Int.eq_ofNat_of_zero_le (Int.le_trans (by decide) hcount.2.1)
      obtain ⟨hpos, hfits⟩ := hadmitted.fits hsame
      refine ⟨s, s + n - 1, hs, ?_, hfits⟩
      rw [if_neg (by omega)]
      congr 1
      omega

/-- Router 129 in the upper half of the network, and ten users from 130 on. -/
def tenUsers : Fields where
  selNetmask := maskText 128
  lanIpaddr4 := ['1', '2', '9']
  startIP := ['1', '3', '0']
  numOfUsers := ['1', '0']

theorem pool_tenUsers : checkClientNumber tenUsers = none ∧ PoolRight 128 129 tenUsers := by
  have hcheck : checkClientNumber tenUsers = none := by decide +kernel
  have hlan : wholeNumber tenUsers.lanIpaddr4 = some 129 := by decide +kernel
  refine ⟨hcheck, (pool_right_iff (by decide) rfl hlan).mpr ?_⟩
  intro hmisread
  have hmarked : hexMarked tenUsers.numOfUsers = false := by decide
  rw [hmisread.marked] at hmarked
  cases hmarked

/-- Router 1 in a network of 256 addresses, and five users written `0x5`. -/
def hexUsers : Fields where
  selNetmask := maskText 0
  lanIpaddr4 := ['1']
  startIP := ['2']
  numOfUsers := ['0', 'x', '5']

/-- The form is accepted, and the pool is one address. -/
theorem pool_hexUsers : checkClientNumber hexUsers = none ∧
    (assembleDhcpEndAddress hexUsers).toOption = some (some 2) ∧ ¬PoolRight 0 1 hexUsers := by
  have hcheck : checkClientNumber hexUsers = none := by decide +kernel
  refine ⟨hcheck, by decide +kernel, ?_⟩
  intro hright
  obtain ⟨s, e, hs, he, hfits⟩ := hright ['2'] (some 2) hcheck rfl (by rfl)
  have hfive : parseIntBare false hexUsers.numOfUsers = some 5 := by decide +kernel
  have htwo : wholeNumber ['2'] = some 2 := by decide +kernel
  obtain rfl := Option.some.inj (htwo.symm.trans hs)
  have hsize := hfits.size.2
  rw [hfive, ← Option.some.inj he] at hsize
  cases hsize

end Xwr100.Www.DhcpPool
