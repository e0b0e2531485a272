import Xwr100.Lib.Compact
import Xwr100.Lib.Run
import Xwr100.Www.Text

/-! # The port-triggering table

The triggering rules of `adv_security.htm` are in fields numbered from 0 to 9, the first
`count_tri` of which are shown as rows.  The ports that trigger a rule are kept in one field,
joined by a dash.
-/

namespace Xwr100.Www.Trigger

open Lib

structure Entry where
  ptna : Text
  ptir : Text
  ptsp : Text
  ptfp : Text
  pten : Text
  deriving DecidableEq

structure Row where
  appName : Text
  triggerPortStart : Text
  triggerPortEnd : Text
  forwardPortStart : Text
  forwardPortEnd : Text
  triggerEnable : Bool
  deriving DecidableEq

/-- The page and what the router has stored.  `top` is the highest number of an entry that has
been read or written. -/
structure Page where
  stored : Nat → Entry
  entries : Nat → Entry
  rows : Nat → Row
  count : Nat
  top : Nat

def Page.touch (p : Page) (n : Nat) : Page := { p with top := max p.top n }

def noPort (t : Text) : Bool := t == ['0'] || t == []

/-- What loading takes for a blank entry; it does not look at the enable flag. -/
def loadBlank (e : Entry) : Bool :=
  e.ptna == [] && noPort (getSegment '-' e.ptir 1) && noPort (getSegment '-' e.ptir 2) &&
    noPort e.ptsp && noPort e.ptfp

/-- The entries before the first blank one. -/
def leading (entries : Nat → Entry) : Nat :=
  ((cut entries 0 10).takeWhile fun e => !loadBlank e).length

def checkPtgDefaultCount (entries : Nat → Entry) : Nat :=
  if leading entries ≤ 5 then 5 else leading entries

/-- Loading reads entries up to the first blank one, and those of the rows it shows. -/
def load (p : Page) : Page :=
  let count := checkPtgDefaultCount p.stored
  { (p.touch (min (leading p.stored) 9)).touch (count - 1) with
    entries := p.stored
    count := count }

def entryOf (r : Row) : Entry where
  ptna := r.appName
  ptir := r.triggerPortStart ++ ['-'] ++ r.triggerPortEnd
  ptsp := r.forwardPortStart
  ptfp := r.forwardPortEnd
  pten := if r.triggerEnable then ['1'] else ['0']

def storeRow (p : Page) (i : Nat) : Page :=
  { p.touch i with entries := Function.update p.entries i (entryOf (p.rows i)) }

/-- A pass of the loop of `more_ptg`. -/
def moreRow (p : Page) (i : Nat) : Except Page Page :=
  if (p.rows i).appName = [] then .error p else .ok (storeRow p i)

/-- `more_ptg`: `DataShow_ptg_add` reads the entries of the rows up to the new one. -/
def morePtg (p : Page) : Page :=
  match (List.range p.count).foldlM moreRow p with
  | .error p => p
  | .ok p => if p.count + 1 ≤ 10 then { p.touch p.count with count := p.count + 1 } else p

/-- `PortCheck2`: not in the wrong order. -/
def portCheck2 (startPort endPort : Text) : Bool :=
  !compareNumbers (fun a b => a > b) (parseInt startPort) (parseInt endPort)

/-- The tests of a row.  A disabled row may hold anything in its ports.  (`isBlank` is called
with the field instead of its value and refuses nothing.) -/
def rowAccepted (r : Row) : Bool :=
  (!r.triggerEnable ||
    (r.appName != [] && portCheck2 r.triggerPortStart r.triggerPortEnd &&
      portCheck2 r.forwardPortStart r.forwardPortEnd && portCheck r.triggerPortStart &&
      portCheck r.triggerPortEnd && portCheck r.forwardPortStart &&
      portCheck r.forwardPortEnd)) &&
  checkQuote1 r.appName && specialCharCheck r.appName

def saveBlank (e : Entry) : Bool :=
  e.ptna == [] && e.ptir == ['0', '-', '0'] && e.ptsp == ['0'] && e.ptfp == ['0'] &&
    e.pten == ['0']

def blankEntry : Entry := ⟨[], ['-'], [], [], ['0']⟩

def shiftStep (p : Page) (k : Nat) : Page :=
  { p.touch (k + 1) with entries := Function.update p.entries k (p.entries (k + 1)) }

def closeUp (i : Nat) (p : Page) : Page :=
  let p := (List.range' i (p.count - 1 - i)).foldl shiftStep p
  { p.touch (p.count - 1) with
    entries := Function.update p.entries (p.count - 1) blankEntry
    count := p.count - 1 }

def bubble (p : Page) : Page :=
  squeeze Page.count (fun p i => saveBlank (p.entries i)) closeUp p.count 0 p

/-- `ValidateForm_port_tri`: all rows are tested before the first is stored. -/
def validateFormPortTri (p : Page) : Option Page :=
  if (List.range p.count).all fun i => rowAccepted (p.rows i) then
    some (bubble ((List.range p.count).foldl storeRow p))
  else none

inductive Event
  | load
  | more (rows : Nat → Row)
  | save (rows : Nat → Row)

def step (p : Page) : Event → Page
  | .load => load p
  | .more rows => morePtg { p with rows := rows }
  | .save rows =>
      match validateFormPortTri { p with rows := rows } with
      | none => { p with rows := rows }
      | some p => load { p with stored := p.entries }

def emptyEntry : Entry := ⟨[], [], [], [], []⟩

def blankRow : Row := ⟨[], ['0'], ['0'], ['0'], ['0'], false⟩

def init : Page :=
  load ⟨fun _ => emptyEntry, fun _ => emptyEntry, fun _ => blankRow, 0, 0⟩

end Xwr100.Www.Trigger
