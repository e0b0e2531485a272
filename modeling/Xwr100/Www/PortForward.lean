import Xwr100.Lib.Compact
import Xwr100.Lib.Run
import Xwr100.Www.Text

/-! # The port-forwarding table

`adv_security.htm` keeps the forwarding rules in fields numbered up to 15; the first three
are for well-known services and the table proper starts at 4.  The page shows the rows up to
`count_pfw`, which loading computes from the fields and the "more" link raises; saving stores
the rows, closes up the blank entries and submits.  What the rows hold when a button is
pressed comes with the event.
-/

namespace Xwr100.Www.Forward

open Lib

structure Entry where
  spdesc : Text
  spexp : Text
  spinp : Text
  sppl : Text
  spip : Text
  spen : Text
  deriving DecidableEq

structure Row where
  description : Text
  external : Text
  internal : Text
  protocol : Text
  toIP : Text
  enable : Bool
  deriving DecidableEq

/-- The page and what the router has stored.  `top` is the highest number of an entry that has
been read or written. -/
structure Page where
  stored : Nat → Entry
  entries : Nat → Entry
  rows : Nat → Row
  count : Nat
  top : Nat

def Page.touch (p : Page) (n : Nat) : Page := { p with top := max p.top n }

/-- The part of the router's address behind the last dot, and the part before it. -/
def lanHost (lan : Text) : Text := (lan.splitOn '.').getLastD []

def lanPrefix (lan : Text) : Text :=
  let tmp := lan.splitOn '.'
  tmp.getD 0 [] ++ ['.'] ++ tmp.getD 1 [] ++ ['.'] ++ tmp.getD 2 [] ++ ['.']

def loadBlank (e : Entry) : Bool := e.spdesc == [] && (e.spen == ['0'] || e.spen == [])

def checkPfwDefaultCount (entries : Nat → Entry) : Nat :=
  let count_pfw := (cut entries 4 12).countP fun e => !loadBlank e
  if count_pfw ≤ 3 then 6 else count_pfw + 3

/-- Loading reads entries 4 to 15 for the count, and the entries of the rows it shows. -/
def load (p : Page) : Page :=
  let count := checkPfwDefaultCount p.stored
  { (p.touch 15).touch count with entries := p.stored, count := count }

def entryOf (lan : Text) (r : Row) : Entry where
  spdesc := r.description
  spexp := r.external
  spinp := r.internal
  sppl := r.protocol
  spip := lanPrefix lan ++ r.toIP
  spen := if r.enable then ['1'] else ['0']

/-- Entry `i` is written; the page has no entry above 15, and using one ends the script. -/
def writeEntry (p : Page) (i : Nat) (e : Entry) : Except Page Page :=
  if 15 < i then .error (p.touch i)
  else .ok { p.touch i with entries := Function.update p.entries i e }

/-- A pass of the loop of `more_pfw`. -/
def moreRow (lan : Text) (p : Page) (i : Nat) : Except Page Page :=
  if (p.rows i).description = [] then .error p else writeEntry p i (entryOf lan (p.rows i))

/-- `more_pfw`: with the new row, `DataShow_pfw_add` reads the entries of the rows from the
seventh on. -/
def morePfw (lan : Text) (p : Page) : Page :=
  match (List.range' 4 (p.count - 3)).foldlM (moreRow lan) p with
  | .error p => p
  | .ok p => if p.count + 1 ≤ 16 then { p.touch (p.count + 1) with count := p.count + 1 } else p

/-- Two protocol selections that meet; `2` is both. -/
def samePro (a b : Text) : Bool := a == b || wholeNumber a == some 2 || wholeNumber b == some 2

/-- The port of row `i` is taken by another row, or by an added one before it. -/
def clashes (p : Page) (i : Nat) : Bool :=
  let ext := fun k => (p.rows k).external
  let inte := fun k => (p.rows k).internal
  let pro := fun k => (p.rows k).protocol
  ((List.range' 1 p.count).any fun u =>
    !(ext i == ['0'] && inte i == ['0']) && u != i && ext u != [] && ext i == inte i &&
      inte i == ext u && samePro (pro i) (pro u)) ||
  ((List.range' 6 (i - 6)).any fun k =>
    !(ext k == [] || inte k == []) && ext i == ext k && inte i == inte k &&
      samePro (pro i) (pro k))

/-- The ports of a disabled row: two zeros are emptied, in the row as well. -/
def blankPorts (p : Page) (i : Nat) : Except Page Page :=
  let r := p.rows i
  let r := if r.external = ['0'] ∧ r.internal = ['0'] then { r with external := [], internal := [] }
    else r
  writeEntry { p with rows := Function.update p.rows i r } i
    { p.entries i with spexp := r.external, spinp := r.internal }

/-- The row is stored, and then its description is looked at once more. -/
def finishRow (lan : Text) (p : Page) (i : Nat) : Except Page Page :=
  writeEntry p i (entryOf lan (p.rows i)) >>= fun p =>
    if specialCharCheck (p.rows i).description then .ok p else .error p

def finishDisabled (lan : Text) (p : Page) (i : Nat) : Except Page Page :=
  if 3 < i && !(portCheck1 (p.rows i).external && portCheck1 (p.rows i).internal) then .error p
  else if !ipCheck1 (p.rows i).toIP then .error p
  else finishRow lan p i

/-- A pass of the loop over the rows; the first three have fixed ports. -/
def validateRow (lan : Text) (p : Page) (i : Nat) : Except Page Page :=
  if !checkQuote1 (p.rows i).description then .error p
  else if (p.rows i).toIP = lanHost lan then .error p
  else if 3 < i && clashes p i then .error p
  else if (p.rows i).enable then
    if 3 < i && !(portCheck (p.rows i).external && portCheck (p.rows i).internal) then .error p
    else if !ipCheck (p.rows i).toIP then .error p
    else finishRow lan p i
  else if 3 < i then blankPorts p i >>= fun p => finishDisabled lan p i
  else finishDisabled lan p i

def saveBlank (e : Entry) : Bool :=
  e.spdesc == [] && e.spexp == [] && e.spinp == [] && e.spen == ['0']

def blankEntry : Entry := ⟨[], [], [], [], [], []⟩

def shiftStep (p : Page) (k : Nat) : Page :=
  { p.touch (k + 1) with entries := Function.update p.entries k (p.entries (k + 1)) }

def closeUp (i : Nat) (p : Page) : Page :=
  let p := (List.range' i (p.count - i)).foldl shiftStep p
  { p.touch p.count with
    entries := Function.update p.entries p.count blankEntry
    count := p.count - 1 }

/-- The loop that closes up the blank entries; the last row shown is not looked at. -/
def bubble (p : Page) : Page :=
  squeeze Page.count (fun p i => saveBlank (p.entries i)) closeUp p.count 4 p

def validateFormPortFor (lan : Text) (p : Page) : Except Page Page :=
  ((List.range' 1 p.count).foldlM (validateRow lan) p).map bubble

inductive Event
  | load
  | more (rows : Nat → Row)
  | save (rows : Nat → Row)

def step (lan : Text) (p : Page) : Event → Page
  | .load => load p
  | .more rows => morePfw lan { p with rows := rows }
  | .save rows =>
      match validateFormPortFor lan { p with rows := rows } with
      | .error p => p
      | .ok p => load { p with stored := p.entries }

def blankRow : Row := ⟨[], [], [], [], [], false⟩

def init : Page :=
  load ⟨fun _ => blankEntry, fun _ => blankEntry, fun _ => blankRow, 0, 0⟩

end Xwr100.Www.Forward
