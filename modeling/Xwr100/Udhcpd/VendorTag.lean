import Xwr100.Udhcpd.Marks
import Xwr100.Udhcpd.OptionScan

/-!
# Whose vendor class tags a device

`get_option` notes a vendor class only if it passes one on its way to the option it looks for,
and `add_lease` uses up what the last such scan has noted, of this packet or of an earlier one.
A packet's records are announced as its own vendor class says exactly if its own scans settle the
flag in time.
-/

namespace Xwr100.Udhcpd

open Lib

variable {m : DhcpMessage} {v w : Bool} {marks : List Mark}

/-! ## What a scan notes -/

/-- The vendor class passed last in some turns: whether it spells `VIZIO`. -/
def passedVendorLoop (m : DhcpMessage) (code : UInt8) :
    Nat → OptionScan → Option Bool → Option Bool
  | 0, _, seen => seen
  | fuel + 1, scan, seen =>
      match scan.turn m code with
      | .goes scan' =>
          passedVendorLoop m code fuel scan'
            (if scan.byte m scan.i = dhcpVendor then
              some (isVizio m (scan.optionptr + scan.i + 2)) else seen)
      | .returns _ => seen

/-- The vendor class `get_option` passes last on its way to an option, if it passes one. -/
def DhcpMessage.passedVendor (m : DhcpMessage) (code : UInt8) : Option Bool :=
  passedVendorLoop m code 512 .start none

theorem getOptionLoop_passedVendor (code : UInt8) (fuel : Nat) (scan : OptionScan)
    (seen : Option Bool) :
    (getOptionLoop m code fuel scan (seen.getD v)).2 =
      (passedVendorLoop m code fuel scan seen).getD v := by
  induction fuel generalizing scan seen with
  | zero => rfl
  | succ fuel ih =>
      rw [getOptionLoop_turn, passedVendorLoop]
      cases scan.turn m code with
      | returns _ => rfl
      | goes scan' =>
          dsimp only
          rw [← ih]
          unfold OptionScan.vendorFlag
          split <;> rfl

theorem getOption_passedVendor (code : UInt8) :
    (getOption m code v).2 = (m.passedVendor code).getD v :=
  getOptionLoop_passedVendor code 512 .start none

/-- The packet's vendor class begins with `VIZIO`. -/
def DhcpMessage.vizioClient (m : DhcpMessage) : Bool :=
  match m.findOption dhcpVendor with
  | some pos => 5 ≤ (m.mem (pos - 1)).toNat && isVizio m pos
  | none => false

/-! ## What has settled the flag -/

/-- What a mark settles the flag to, if it does. -/
def Mark.verdict (m : DhcpMessage) : Mark → Option Bool
  | scan code => m.passedVendor code
  | add _ addr => if addr = 0#32 then none else some false

/-- The last verdict of some marks. -/
def decided (m : DhcpMessage) : List Mark → Option Bool
  | [] => none
  | mark :: rest => (decided m rest).or (mark.verdict m)

theorem Mark.flag_verdict (mark : Mark) : mark.flag m v = (mark.verdict m).getD v := by
  cases mark with
  | scan code => exact getOption_passedVendor code
  | add chaddr addr =>
      rw [Mark.flag, verdict]
      split <;> rfl

theorem flagAfter_decided (marks : List Mark) :
    flagAfter m v marks = (decided m marks).getD v := by
  induction marks generalizing v with
  | nil => rfl
  | cons mark rest ih =>
      have hrest : flagAfter m v (mark :: rest) = flagAfter m (mark.flag m v) rest := rfl
      rw [hrest, ih, mark.flag_verdict, decided]
      cases decided m rest <;> rfl

/-! ## The property of a packet -/

def Server.idle (s : Server) : Server := { s with probes := 0, replies := [] }

def Server.packetMarks (env : Env) (m : DhcpMessage) (s : Server) : List Mark :=
  if s.hung then [] else s.idle.dispatchMarks env m

/-- A record the packet makes for its own client is announced as a VIZIO device exactly if the
packet's vendor class says so. -/
def TagsOwn (s : Server) : Event → Prop
  | .packet env m => ∀ pre addr post, s.packetMarks env m = pre ++ .add m.chaddr addr :: post →
      addr ≠ 0#32 →
      (.addVizioDevice addr ∈ (Mark.add m.chaddr addr).commands (flagAfter m s.vizioDevice pre) ↔
        m.vizioClient = true)
  | _ => True

/-- The commands of a packet are the same whatever flag earlier packets have left. -/
def TagsAlike (s : Server) : Event → Prop
  | .packet env m => ∀ v, (step { s with vizioDevice := v } (.packet env m)).commands =
      (step s (.packet env m)).commands
  | _ => True

/-- Before a record for the packet's own client the last verdict, or if there is none the flag
that was left, is the packet's vendor class. -/
def OwnSettled (s : Server) : Event → Prop
  | .packet env m => ∀ pre addr post, s.packetMarks env m = pre ++ .add m.chaddr addr :: post →
      addr ≠ 0#32 → (decided m pre).getD s.vizioDevice = m.vizioClient
  | _ => True

/-- Before any record of the packet there is a verdict. -/
def AllSettled (s : Server) : Event → Prop
  | .packet env m => ∀ pre chaddr addr post,
      s.packetMarks env m = pre ++ .add chaddr addr :: post →
      addr ≠ 0#32 → decided m pre ≠ none
  | _ => True

theorem addVizioDevice_mem_commands {chaddr : Chaddr} {addr : Addr} (haddr : addr ≠ 0#32) :
    .addVizioDevice addr ∈ (Mark.add chaddr addr).commands v ↔ v = true := by
  rw [Mark.commands, if_neg haddr]
  cases v <;> simp [announcement]

theorem tagsOwn_iff (s : Server) (e : Event) : TagsOwn s e ↔ OwnSettled s e := by
  cases e with
  | packet env m =>
      have hiff : ∀ pre addr, addr ≠ 0#32 →
          ((.addVizioDevice addr ∈
              (Mark.add m.chaddr addr).commands (flagAfter m s.vizioDevice pre) ↔
            m.vizioClient = true) ↔ (decided m pre).getD s.vizioDevice = m.vizioClient) := by
        intro pre addr haddr
        rw [addVizioDevice_mem_commands haddr, flagAfter_decided]
        exact Bool.eq_iff_iff.symm
      constructor
      · intro h pre addr post hmarks haddr
        exact (hiff pre addr haddr).mp (h pre addr post hmarks haddr)
      · intro h pre addr post hmarks haddr
        exact (hiff pre addr haddr).mpr (h pre addr post hmarks haddr)
  | writeLeases => exact Iff.rfl
  | reload => exact Iff.rfl

/-! ## Independence of what was left -/

theorem commands_length (mark : Mark) : (mark.commands v).length = (mark.commands w).length := by
  cases mark with
  | scan code => rfl
  | add chaddr addr =>
      rw [Mark.commands, Mark.commands]
      split <;> rfl

theorem issued_length (marks : List Mark) :
    (issued m v marks).length = (issued m w marks).length := by
  induction marks generalizing v w with
  | nil => rfl
  | cons mark rest ih =>
      rw [issued, issued, List.length_append, List.length_append, commands_length mark, ih]

/-- Marks with a verdict before every record issue the same commands from any flag. -/
theorem issued_eq_of_settled
    (h : ∀ pre chaddr addr post, marks = pre ++ .add chaddr addr :: post → addr ≠ 0#32 →
      decided m pre ≠ none) : issued m v marks = issued m w marks := by
  induction marks with
  | nil => rfl
  | cons mark rest ih =>
      have hcommands : mark.commands v = mark.commands w := by
        cases mark with
        | scan code => rfl
        | add chaddr addr =>
            rw [Mark.commands, Mark.commands]
            split
            · rfl
            · rename_i haddr
              exact absurd rfl (h [] chaddr addr rest rfl haddr)
      rw [issued, issued, hcommands, mark.flag_verdict, mark.flag_verdict]
      cases hverdict : mark.verdict m with
      | some b => rfl
      | none =>
          congr 1
          apply ih
          intro pre chaddr addr post hrest haddr hnone
          apply h (mark :: pre) chaddr addr post (by rw [hrest]; rfl) haddr
          rw [decided, hnone, hverdict]
          rfl

/-- And the commands tell the flag a record without a verdict before it was made from. -/
theorem settled_of_issued_eq (h : issued m true marks = issued m false marks)
    {pre post : List Mark} {chaddr : Chaddr} {addr : Addr}
    (hmarks : marks = pre ++ .add chaddr addr :: post) (haddr : addr ≠ 0#32) :
    decided m pre ≠ none := by
  intro hnone
  rw [hmarks, issued_append, issued_append] at h
  have hrest := (List.append_inj h (issued_length pre)).2
  rw [flagAfter_decided, flagAfter_decided, hnone] at hrest
  have hrecord : (Mark.add chaddr addr).commands true = (Mark.add chaddr addr).commands false :=
    (List.append_inj hrest (commands_length _)).1
  have htagged : .addVizioDevice addr ∈ (Mark.add chaddr addr).commands true :=
    (addVizioDevice_mem_commands haddr).mpr rfl
  rw [hrecord] at htagged
  exact Bool.noConfusion ((addVizioDevice_mem_commands haddr).mp htagged)

theorem step_commands (s : Server) (env : Env) (m : DhcpMessage) (v : Bool) :
    (step { s with vizioDevice := v } (.packet env m)).commands =
      s.commands ++ issued m v (s.packetMarks env m) := by
  unfold step Server.packetMarks
  dsimp only
  split
  · rw [issued, List.append_nil]
  · have hflagged := Server.dispatch_flagged env m s.idle (v := v) (c := s.commands)
    exact congrArg Server.commands hflagged

theorem tagsAlike_iff (s : Server) (e : Event) : TagsAlike s e ↔ AllSettled s e := by
  cases e with
  | packet env m =>
      have hstep := step_commands s env m s.vizioDevice
      constructor
      · intro h pre chaddr addr post hmarks haddr
        have hissued : issued m true (s.packetMarks env m) =
            issued m false (s.packetMarks env m) := by
          have hlogs : s.commands ++ issued m true (s.packetMarks env m) =
              s.commands ++ issued m false (s.packetMarks env m) := by
            rw [← step_commands, ← step_commands, h true, h false]
          exact List.append_cancel_left hlogs
        exact settled_of_issued_eq hissued hmarks haddr
      · intro h v
        rw [step_commands]
        exact (congrArg (s.commands ++ ·) (issued_eq_of_settled h)).trans hstep.symm
  | writeLeases => exact Iff.rfl
  | reload => exact Iff.rfl

/-- For every run: its packets' records are announced as the packets' own vendor classes say
exactly if the scans settle the flag to them, and no packet's commands depend on the packets before
it exactly if the flag is always settled by the packet itself. -/
theorem run_tags_iff (s : Server) (events : List Event) :
    (Along step TagsOwn s events ↔ Along step OwnSettled s events) ∧
    (Along step TagsAlike s events ↔ Along step AllSettled s events) := by
  constructor
  · exact ⟨Along.mono fun s e => (tagsOwn_iff s e).mp, Along.mono fun s e => (tagsOwn_iff s e).mpr⟩
  · exact ⟨Along.mono fun s e => (tagsAlike_iff s e).mp,
      Along.mono fun s e => (tagsAlike_iff s e).mpr⟩

/-- A discover without a vendor class, and one with the class `VIZIO`. -/
def plainDiscover : DhcpMessage := .ofOptions 0x020000000002#48 0#32 [0x35, 1, 1, 0xff]

def vizioDiscover : DhcpMessage :=
  .ofOptions 0x020000000001#48 0#32
    [0x35, 1, 1, 0x3c, 5, 0x56, 0x49, 0x5a, 0x49, 0x4f, 0xff]

/-- Two clients with a record each; the VIZIO client's discover and then the other's. -/
theorem run_tags_next_client :
    ∃ (env : Env) (config : ServerConfig) (file : List DhcpOfferedAddr),
      ¬Along step TagsOwn (Server.boot env config none 0#32 file)
        [.packet env vizioDiscover] ∧
      ¬TagsOwn (step (Server.boot env config none 0#32 file) (.packet env vizioDiscover))
        (.packet env plainDiscover) ∧
      ¬Along step TagsAlike (Server.boot env config none 0#32 file)
        [.packet env vizioDiscover, .packet env plainDiscover] := by
  refine ⟨⟨1, Nat.one_pos, fun _ _ => false, fun _ => true, 0⟩,
    ⟨0xc0a80101#32, 0xc0a80102#32, 0xc0a801fe#32, 86400, 2, true, 0, 0, 60, 60⟩,
    [⟨⟨0x020000000001#48, 0#80⟩, 0xc0a80105#32, 600, []⟩,
      ⟨⟨0x020000000002#48, 0#80⟩, 0xc0a80106#32, 600, []⟩], ?_, ?_, ?_⟩
  · intro h
    have hown := h.1 [.scan dhcpMessageType] 0xc0a80105#32 [.scan dhcpLeaseTime] (by decide +kernel)
      (by decide)
    revert hown
    decide +kernel
  · intro h
    have hown := h [.scan dhcpMessageType] 0xc0a80106#32 [.scan dhcpLeaseTime] (by decide +kernel)
      (by decide)
    revert hown
    decide +kernel
  · intro h
    have halike := h.2.1 false
    revert halike
    decide +kernel

end Xwr100.Udhcpd
