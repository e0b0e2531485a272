import Xwr100.Www.ForwardLossless
import Xwr100.Www.TriggerLossless

/-! # The two port tables of a page

The tables are kept in fields of their own and are saved one at a time, so a page loses
nothing when neither table does.
-/

namespace Xwr100.Www

open Lib

/-- Loads, new rows and saves of both tables lose nothing exactly when each step of either
keeps what it has to. -/
theorem portTables_lossless_iff (lan : Text) (forwards : List Forward.Event)
    (triggers : List Trigger.Event) :
    (Along (Forward.step lan) (Forward.Lossless lan) Forward.init forwards ∧
      Along Trigger.step Trigger.Lossless Trigger.init triggers) ↔
    (Along (Forward.step lan) (Forward.Keeps lan) Forward.init forwards ∧
      Along Trigger.step Trigger.Keeps Trigger.init triggers) := by
  rw [Forward.along_lossless_iff lan forwards, Trigger.along_lossless_iff triggers]

/-- 192.168.1.1 -/
def routerAddress : Text := ['1', '9', '2', '.', '1', '6', '8', '.', '1', '.', '1']

namespace Forward

/-- A rule for a port, not enabled. -/
def portRow (name port : Text) : Row := ⟨name, port, port, ['0'], ['9'], false⟩

/-- Rules in rows 4 to 7, the last without a description. -/
def fourRules (lastName : Text) (k : Nat) : Row :=
  if k = 4 then portRow ['a'] ['8', '1'] else if k = 5 then portRow ['b'] ['8', '2']
  else if k = 6 then portRow ['c'] ['8', '3'] else if k = 7 then portRow lastName ['8', '4']
  else blankRow

end Forward

namespace Trigger

/-- A rule of one port, not enabled, and a row whose fields have been emptied. -/
def portRow (name : Text) : Row := ⟨name, ['7'], ['7'], ['8'], ['8'], false⟩

def emptiedRow : Row := ⟨[], [], [], [], [], false⟩

end Trigger

/-- Four forwarding rules are stored, and loading shows three of them; an emptied row stays in
front of five triggering rules, and loading shows four of them; and the "more" link asks for
forwarding entry 16. -/
theorem portTables_lose_rows :
    (∃ q, Forward.validateFormPortFor routerAddress { Forward.step routerAddress Forward.init
        (.more (Forward.fourRules ['d'])) with rows := Forward.fourRules [] } = .ok q ∧
      (q.entries 7).isBlank = false ∧ Forward.checkPfwDefaultCount q.entries = 6) ∧
    (∃ q, Trigger.validateFormPortTri { Trigger.step Trigger.init
        (.more fun _ => Trigger.portRow ['a']) with
          rows := fun k => if k = 0 then Trigger.emptiedRow else Trigger.portRow ['a'] } = some q ∧
      (q.entries 5).isBlank = false ∧ Trigger.checkPtgDefaultCount q.entries = 5) ∧
    (exec (Forward.step routerAddress) Forward.init
      (List.replicate 10 (.more fun _ => Forward.portRow ['a'] ['8', '1']))).top = 16 ∧
    ¬∀ (forwards : List Forward.Event) (triggers : List Trigger.Event),
      Along (Forward.step routerAddress) (Forward.Lossless routerAddress) Forward.init forwards ∧
        Along Trigger.step Trigger.Lossless Trigger.init triggers := by
  have hforward : (Forward.validateFormPortFor routerAddress { Forward.step routerAddress Forward.init
      (.more (Forward.fourRules ['d'])) with rows := Forward.fourRules [] }).toOption.map
        (fun q => ((q.entries 7).isBlank, Forward.checkPfwDefaultCount q.entries)) =
          some (false, 6) := by decide +kernel
  have htrigger : (Trigger.validateFormPortTri { Trigger.step Trigger.init
      (.more fun _ => Trigger.portRow ['a']) with
        rows := fun k => if k = 0 then Trigger.emptiedRow else Trigger.portRow ['a'] }).map
          (fun q => ((q.entries 5).isBlank, Trigger.checkPtgDefaultCount q.entries)) =
            some (false, 5) := by decide +kernel
  have hq : ∃ q, Forward.validateFormPortFor routerAddress { Forward.step routerAddress Forward.init
      (.more (Forward.fourRules ['d'])) with rows := Forward.fourRules [] } = .ok q ∧
        (q.entries 7).isBlank = false ∧ Forward.checkPfwDefaultCount q.entries = 6 := by
    obtain ⟨q, hq, hvalues⟩ := Option.map_eq_some_iff.mp hforward
    obtain ⟨hblank, hcount⟩ := Prod.mk.inj hvalues
    refine ⟨q, ?_, hblank, hcount⟩
    cases hform : Forward.validateFormPortFor routerAddress { Forward.step routerAddress Forward.init
        (.more (Forward.fourRules ['d'])) with rows := Forward.fourRules [] } with
    | error r =>
        rw [hform] at hq
        contradiction
    | ok r =>
        rw [hform] at hq
        rw [Option.some.inj hq]
  refine ⟨hq, ?_, by decide +kernel, ?_⟩
  · obtain ⟨q, hq, hvalues⟩ := Option.map_eq_some_iff.mp htrigger
    obtain ⟨hblank, hcount⟩ := Prod.mk.inj hvalues
    exact ⟨q, hq, hblank, hcount⟩
  · intro hall
    obtain ⟨q, hq, hblank, hcount⟩ := hq
    obtain ⟨-, ⟨-, hsave⟩, -⟩ :=
      (hall [.more (Forward.fourRules ['d']), .save (Forward.fourRules [])] []).1
    have hle := (hsave q hq).visible 7 (by omega) (by omega) hblank
    omega

end Xwr100.Www
