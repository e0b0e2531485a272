import Xwr100.Lib.Compact
import Xwr100.Www.Text

/-! # The access-restriction page

`adv_control.htm` shows up to ten policies as rows of a form.  Saving stores each row in
variables numbered from 1, and its two flags and its schedule in lists whose elements are
separated by bars and numbered from 0 (`filters.js`); then the rows without a name are
closed up.  A row's selection is the number of the chosen option; a number that is no
option's means that nothing is chosen, and the field then reads as the empty text.
-/

namespace Xwr100.Www.Access

open Lib

def twoDigits (n : Nat) : Text := [Nat.digitChar (n / 10), Nat.digitChar (n % 10)]

def hourOptions : List Text := (List.range 24).map twoDigits

/-- The last option is out of step with the others. -/
def minuteOptions : List Text := (List.range 12).map (fun n => twoDigits (5 * n)) ++ [twoDigits 59]

def allowOptions : List Text := [['0'], ['1']]

def chosen (options : List Text) (selectedIndex : Nat) : Text := options.getD selectedIndex []

/-- A row of the form.  `everyDay` is the checkbox `days_k_8`, `days j` is `days_k_j` for
`j` from 1 to 7; the seven are enabled and disabled together. -/
structure Row where
  arnform : Text
  filterStatus : Bool
  filterAllow : Nat
  startHour : Nat
  startMin : Nat
  endHour : Nat
  endMin : Nat
  everyDay : Bool
  days : Nat → Bool
  daysDisabled : Bool

/-- The variables of a policy: ten hardware addresses, six hosts and four ranges. -/
structure Policy where
  arn : Text
  aren : Text
  art : Text
  arts : Text
  artp : Text
  artd : Text
  arm : Vector Text 10
  arip : Vector Text 6
  arips : Vector Text 4
  aripe : Vector Text 4

/-- The page: rows and variables are numbered from 1, `count` rows are shown. -/
structure Page where
  rows : Nat → Row
  vars : Nat → Policy
  filterStatuss : Text
  filterAllows : Text
  scheduleList : Text
  count : Nat

namespace Page

def setRow (p : Page) (k : Nat) (r : Row) : Page := { p with rows := Function.update p.rows k r }

def setVars (p : Page) (k : Nat) (v : Policy) : Page :=
  { p with vars := Function.update p.vars k v }

end Page

/-- What a row writes into the variable `aren` and into the list of flags. -/
def flag (b : Bool) : Text := if b then ['1'] else ['0']

def arts (r : Row) : Text :=
  chosen hourOptions r.startHour ++ [':'] ++ chosen minuteOptions r.startMin ++ [':', '0', '0']

def artp (r : Row) : Text :=
  chosen hourOptions r.endHour ++ [':'] ++ chosen minuteOptions r.endMin ++ [':', '5', '9']

/-- The values of the checkboxes `days_k_1` to `days_k_7`: Sunday, the seventh, is bit 0. -/
def dayValue (j : Nat) : Nat := if j = 7 then 1 else 2 <<< (j - 1)

def dayMask (r : Row) : Nat :=
  (List.range' 1 7).foldl (fun k j => if r.days j then k + dayValue j else k) 0

def artd (r : Row) : Text := if r.everyDay then ['1', '2', '8'] else showNumber (dayMask r)

def zeroMac : Text :=
  ['0', '0', ':', '0', '0', ':', '0', '0', ':', '0', '0', ':', '0', '0', ':', '0', '0']

def editlistFill (v : Policy) : Bool :=
  v.arm.any (fun t => t != zeroMac && t != []) || v.arip.any (fun t => t != ['0'] && t != []) ||
    v.arips.any (fun t => t != ['0'] && t != []) || v.aripe.any (fun t => t != ['0'] && t != [])

/-- The start comes before the end. -/
def checkTimeRange (r : Row) : Bool :=
  let starthour := parseInt (chosen hourOptions r.startHour)
  let endhour := parseInt (chosen hourOptions r.endHour)
  let startminute := parseInt (chosen minuteOptions r.startMin)
  let endminute := parseInt (chosen minuteOptions r.endMin)
  if compareNumbers (fun a b => a > b) starthour endhour then false
  else if compareNumbers (fun a b => a == b) starthour endhour &&
    compareNumbers (fun a b => a ≥ b) startminute endminute then false
  else true

def schedule (r : Row) : Text :=
  let days :=
    if r.everyDay then ['8', ':']
    else ['-'].intercalate (((List.range' 1 7).filter fun j => r.days j).map showNumber) ++ [':']
  days ++ ['0', ':'] ++ chosen hourOptions r.startHour ++ [':'] ++
    chosen minuteOptions r.startMin ++ [':', '0', ':'] ++ chosen hourOptions r.endHour ++ [':'] ++
    chosen minuteOptions r.endMin ++ [':']

/-- `CombineInternetFilter`: the two flags of a row go into the lists. -/
def combineInternetFilter (p : Page) (index : Nat) : Page :=
  let r := p.rows index
  let filterStatus :=
    Function.update (splitBars p.filterStatuss) (index - 1) (some (flag r.filterStatus))
  let filterAllow := Function.update (splitBars p.filterAllows) (index - 1)
    (some (flag (chosen allowOptions r.filterAllow != ['0'])))
  { p with
    filterStatuss := joinBars filterStatus
    filterAllows := joinBars filterAllow }

/-- `CombineScheduleList`: its second statement overwrites the number of the row, so it
reads row 1 and writes element 1 whatever row it is called for.  The test for a row
without a day compares the checkbox itself with `false` in one place, which never holds. -/
def combineScheduleList (p : Page) (_index : Nat) : Option Page :=
  let k := 1
  let index := 1
  let r := p.rows k
  let checkboxIsFalse := false
  if r.arnform != [] && !r.everyDay && !r.days 1 && !r.days 2 && !r.days 3 && !r.days 4 &&
    checkboxIsFalse && !r.days 6 && !r.days 7 then none
  else
    some { p with
      scheduleList :=
        joinBetween (Function.update (splitBars p.scheduleList) index (some (schedule r))) }

/-- What saving stores for a row without a name. -/
def storeEmpty (v : Policy) : Policy :=
  { v with arn := [], aren := ['0'], art := ['1'], arts := [], artp := [], artd := [] }

def storeRow (r : Row) (v : Policy) : Policy :=
  { v with
    arn := r.arnform
    aren := flag r.filterStatus
    art := chosen allowOptions r.filterAllow
    arts := arts r
    artp := artp r
    artd := artd r }

/-- One pass of the loop over the rows; `none` is a refusal. -/
def validateRow (p : Page) (index : Nat) : Option Page :=
  let r := p.rows index
  if !checkQuote1 r.arnform then none
  else if r.arnform = [] then
    if editlistFill (p.vars index) then none
    else
      let p := p.setVars index (storeEmpty (p.vars index))
      let p := p.setRow index { r with filterStatus := false, filterAllow := 0 }
      combineScheduleList (combineInternetFilter p index) index
  else if !specialCharCheck r.arnform then none
  else if !checkTimeRange r then none
  else
    let p := p.setVars index (storeRow r (p.vars index))
    combineScheduleList (combineInternetFilter p index) index

/-- Elements `k, …, count - 1` of a list take the value of the next one. -/
def shiftList (a : Slots) (k count : Nat) : Slots :=
  (List.range' k (count - k)).foldl (fun a m => Function.update a m (a (m + 1))) a

/-- One pass of the inner loop: the variables of policy `k + 1` go to `k`, and both lists
move from element `k` on. -/
def shiftStep (p : Page) (k : Nat) : Page :=
  { p.setVars k (p.vars (k + 1)) with
    filterStatuss := joinBars (shiftList (splitBars p.filterStatuss) k p.count)
    filterAllows := joinBars (shiftList (splitBars p.filterAllows) k p.count) }

def blankPolicy : Policy where
  arn := []
  aren := ['0']
  art := ['1']
  arts := []
  artp := []
  artd := []
  arm := Vector.replicate 10 []
  arip := Vector.replicate 6 []
  arips := Vector.replicate 4 []
  aripe := Vector.replicate 4 []

def closeUp (i : Nat) (p : Page) : Page :=
  let p := (List.range' i (p.count - i)).foldl shiftStep p
  { p.setVars p.count blankPolicy with count := p.count - 1 }

def bubble (p : Page) : Page :=
  squeeze Page.count (fun p i => (p.vars i).arn = []) closeUp p.count 1 p

/-- Rows that count for the first test: a name, or the first row. -/
def entryCheck (p : Page) : Nat :=
  (List.range' 1 p.count).countP fun index => (p.rows index).arnform != [] || index == 1

/-- `ValidateForm`: the page as it is submitted, or nothing. -/
def validateForm (p : Page) : Option Page :=
  if entryCheck p = 0 then none
  else ((List.range' 1 p.count).foldlM validateRow p).map bubble

/-! ## Loading -/

/-- A row as it is written into the page: the first five start without a day, the others,
which `DataShow` writes, with every day. -/
def htmlRow (everyDay : Bool) : Row where
  arnform := []
  filterStatus := false
  filterAllow := 0
  startHour := 0
  startMin := 0
  endHour := 0
  endMin := 0
  everyDay := everyDay
  days := fun _ => false
  daysDisabled := false

/-- The option chosen by assigning a whole number to `selectedIndex`. -/
def toIndex (options : List Text) : Option Int → Nat
  | none => 0
  | some n => if n < 0 then options.length else n.toNat

/-- `t.split(":")[n]` -/
def segment (t : Text) (n : Nat) : Text := (t.splitOn ':').getD n []

def showStart (v : Policy) (r : Row) : Row :=
  if v.arts = [] then r
  else
    { r with
      startHour := toIndex hourOptions (parseInt (segment v.arts 0))
      startMin := toIndex minuteOptions ((parseInt (segment v.arts 1)).map fun n => n.tdiv 5) }

/-- The end knows of the last option, the start does not. -/
def showEnd (v : Policy) (r : Row) : Row :=
  if v.artp = [] then r
  else
    { r with
      endHour := toIndex hourOptions (parseInt (segment v.artp 0))
      endMin := toIndex minuteOptions
        (if segment v.artp 1 = twoDigits 59 then
          (parseInt (segment v.artp 1)).map fun n => n.tdiv 5 + 1
        else (parseInt (segment v.artp 1)).map fun n => n.tdiv 5) }

/-- Bit 0 of the mask is `days_k_7`, bit 7 is `days_k_8`. -/
def showDays (v : Policy) (r : Row) : Row :=
  if v.artd = ['1', '2', '8'] ∨ v.artd = [] then
    { r with everyDay := true, days := fun _ => false, daysDisabled := true }
  else
    let days_index := (wholeNumber v.artd).getD 0
    { r with
      everyDay := days_index.testBit 7
      days := fun j =>
        if j = 7 then days_index.testBit 0
        else if 1 ≤ j ∧ j ≤ 6 then days_index.testBit j else r.days j }

/-- The days of a row that has them disabled without having every day. -/
def enableDays (r : Row) : Row :=
  if !r.everyDay && r.daysDisabled then { r with days := fun _ => false, daysDisabled := false }
  else r

def showStatus (v : Policy) (r : Row) : Row :=
  if wholeNumber v.aren = some 1 then { r with filterStatus := true } else r

/-- How `DataShow` fills a row. -/
def dataShowRow (v : Policy) (r : Row) : Row :=
  let r := { r with arnform := v.arn, filterAllow := allowOptions.idxOf v.art }
  showStatus v (showEnd v (showStart v (enableDays (showDays v r))))

/-- How `InitValue` fills a row. -/
def initRow (v : Policy) (r : Row) : Row :=
  let r := showStatus v { r with arnform := v.arn }
  let r := { r with filterAllow := if v.art = ['1'] then 1 else 0 }
  enableDays (showDays v (showEnd v (showStart v r)))

/-- The rows `lo, lo + 1, …`, `n` of them, are filled from their variables. -/
def fillRows (fill : Policy → Row → Row) (lo n : Nat) (p : Page) : Page :=
  (List.range' lo n).foldl (fun p i => p.setRow i (fill (p.vars i) (p.rows i))) p

/-- `DataShow`: rows 6 to `count` are written anew, all but the last are filled, and the last
gets every day and its other days disabled. -/
def dataShow (p : Page) (count : Nat) : Page :=
  let p := { p with rows := fun k => if 6 ≤ k ∧ k ≤ count then htmlRow true else p.rows k }
  let p := fillRows dataShowRow 6 (count - 6) p
  p.setRow count
    { p.rows count with everyDay := true, days := fun _ => false, daysDisabled := true }

def shownCount (vars : Nat → Policy) : Nat :=
  5 + ((List.range' 6 5).takeWhile fun i => (vars i).arn != []).length

def initValue (p : Page) : Page :=
  let count := shownCount p.vars
  fillRows initRow 1 count ((List.range' 6 (count - 5)).foldl dataShow { p with count := count })

/-- The page that is loaded when the submitted values have been stored. -/
def reload (q : Page) : Page := initValue { q with rows := fun _ => htmlRow false }

end Xwr100.Www.Access
