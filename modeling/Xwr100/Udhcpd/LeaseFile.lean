import Xwr100.Udhcpd.Files
import Xwr100.Udhcpd.Uniqueness
import Mathlib.Data.List.GetD

/-!
# Writing the lease table and reading it back

The records written are those of the slots that are in use, not blank and not found in the
exclusion list.  Loaded into an empty table at the same uptime they take the slots in order:
a loaded record never looks expired, and no two of them match each other.  The files do not
balance: the exclusion list of a blank slot stays open.
-/

namespace Xwr100.Udhcpd

open Lib

variable {env : Env} {s : Server} {exclusion : Option (List UInt8)}

/-! ## What the scan finds -/

/-- The pieces, of at most 19 characters and within a line, in which a text is read. -/
def pieces : Nat → List UInt8 → List (List UInt8)
  | 0, _ => []
  | fuel + 1, text =>
      if text = [] then [] else (fgets 19 text).1 :: pieces fuel (fgets 19 text).2.1

def Listed : Option (List UInt8) → BitVec 48 → Prop
  | none, _ => False
  | some text, mac => macText mac <:+: text

def ListedInPiece : Option (List UInt8) → BitVec 48 → Prop
  | none, _ => False
  | some text, mac => ∃ piece ∈ pieces text.length text, macText mac <:+: cString piece

instance : ∀ (exclusion : Option (List UInt8)) (mac : BitVec 48), Decidable (Listed exclusion mac)
  | none, _ => isFalse id
  | some text, mac => inferInstanceAs (Decidable (macText mac <:+: text))

instance : ∀ (exclusion : Option (List UInt8)) (mac : BitVec 48),
    Decidable (ListedInPiece exclusion mac)
  | none, _ => isFalse id
  | some text, mac => inferInstanceAs
      (Decidable (∃ piece ∈ pieces text.length text, macText mac <:+: cString piece))

theorem fgets_append (room : Nat) (text : List UInt8) :
    (fgets room text).1 ++ (fgets room text).2.1 = text := by
  induction room generalizing text with
  | zero => rfl
  | succ room ih =>
      cases text with
      | nil => rfl
      | cons c rest =>
          rw [fgets]
          split
          · rfl
          · simp [ih rest]

theorem fgets_eof {room : Nat} {text : List UInt8} (h : (fgets room text).2.2 = true) :
    (fgets room text).2.1 = [] := by
  induction room generalizing text with
  | zero => cases h
  | succ room ih =>
      cases text with
      | nil => rfl
      | cons c rest =>
          rw [fgets] at h ⊢
          split
          · rename_i hc
            rw [if_pos hc] at h
            cases h
          · rename_i hc
            rw [if_neg hc] at h
            exact ih h

theorem fgets_length {text : List UInt8} (h : text ≠ []) :
    (fgets 19 text).2.1.length < text.length := by
  cases text with
  | nil => exact absurd rfl h
  | cons c rest =>
      rw [fgets]
      split
      · simp
      · have hrest := congrArg List.length (fgets_append 18 rest)
        rw [List.length_append] at hrest
        simp only [List.length_cons]
        omega

theorem infix_of_pieces {fuel : Nat} {text piece : List UInt8} (h : piece ∈ pieces fuel text) :
    piece <:+: text := by
  induction fuel generalizing text with
  | zero => cases h
  | succ fuel ih =>
      rw [pieces] at h
      split at h
      · cases h
      · have happend := fgets_append 19 text
        rcases List.mem_cons.mp h with rfl | hrest
        · exact ⟨[], (fgets 19 text).2.1, happend⟩
        · exact (ih hrest).trans ⟨(fgets 19 text).1, [], by rw [List.append_nil, happend]⟩

theorem pieces_fuel (n n' : Nat) (text : List UInt8) (hn : text.length ≤ n)
    (hn' : text.length ≤ n') : pieces n text = pieces n' text := by
  induction n generalizing n' text with
  | zero =>
      have hnil : text = [] := List.length_eq_zero_iff.mp (Nat.le_zero.mp hn)
      cases n' <;> simp [pieces, hnil]
  | succ n ih =>
      by_cases hnil : text = []
      · cases n' <;> simp [pieces, hnil]
      · have hlt := fgets_length hnil
        cases n' with
        | zero => exact absurd (List.length_eq_zero_iff.mp (Nat.le_zero.mp hn')) hnil
        | succ n' =>
            simp only [pieces, if_neg hnil]
            rw [ih n' _ (by omega) (by omega)]

/-- The scan finds the address in one of the pieces, or, when nothing is left to read, in the
buffer. -/
theorem scanExclusion_iff (mac : BitVec 48) {fuel : Nat} {text : List UInt8} (bufNo : List UInt8)
    (hfuel : text.length < fuel) :
    (scanExclusion mac fuel text bufNo).1 = true ↔
      (∃ piece ∈ pieces text.length text, macText mac <:+: cString piece) ∨
      (text = [] ∧ macText mac <:+: cString bufNo) := by
  induction fuel generalizing text bufNo with
  | zero => omega
  | succ fuel ih =>
      by_cases hnil : text = []
      · subst hnil
        by_cases hhit : macText mac <:+: cString bufNo <;>
          simp [scanExclusion, fgets, pieces, strstr, hhit]
      · have hlt := fgets_length hnil
        obtain ⟨n, hn⟩ : ∃ n, text.length = n + 1 := Nat.exists_eq_succ_of_ne_zero fun h0 =>
          hnil (List.length_eq_zero_iff.mp h0)
        rw [scanExclusion]
        simp only [if_neg hnil]
        rw [hn, pieces, if_neg hnil, pieces_fuel n _ (fgets 19 text).2.1 (by omega) le_rfl]
        by_cases hhit : macText mac <:+: cString (fgets 19 text).1
        · simp [strstr, hhit]
        · have hmiss : strstr (cString (fgets 19 text).1) (macText mac) = false := by
            simp [strstr, hhit]
          rw [hmiss]
          simp only [Bool.false_eq_true, if_false, List.mem_cons, exists_eq_or_imp, hhit,
            false_or, hnil, false_and, or_false]
          by_cases heof : (fgets 19 text).2.2 = true
          · rw [if_pos heof, fgets_eof heof]
            simp [pieces]
          · have hrest : (fgets 19 text).2.1.length < fuel := by omega
            rw [if_neg heof, ih (fgets 19 text).1 hrest]
            simp [hhit]

theorem macText_ne_nil (mac : BitVec 48) : macText mac ≠ [] := by
  simp [macText, bigEndian, List.intercalate]

theorem scanExclusion_nil (mac : BitVec 48) (fuel : Nat) :
    scanExclusion mac (fuel + 1) [] [] = (false, []) := by
  have hmiss : strstr (cString []) (macText mac) = false := by
    simp [strstr, cString, macText_ne_nil]
  simp [scanExclusion, fgets, hmiss]

/-- What holds of the writer between two turns: without an exclusion list the flag is down, and
an empty list leaves the buffer empty. -/
structure WriterOk (exclusion : Option (List UInt8)) (w : Writer) : Prop where
  noWrite : exclusion = none → w.noWrite = false
  bufNo : exclusion = some [] → w.bufNo = []

theorem WriterOk.scan {w : Writer} (h : WriterOk exclusion w) (mac : BitVec 48) :
    WriterOk exclusion (w.scan exclusion mac) ∧
    ((w.scan exclusion mac).noWrite = true ↔ ListedInPiece exclusion mac) := by
  cases exclusion with
  | none =>
      refine ⟨h, ?_⟩
      simp [Writer.scan, h.noWrite rfl, ListedInPiece]
  | some text =>
      have hiff := scanExclusion_iff mac w.bufNo (Nat.lt_succ_self text.length)
      refine ⟨⟨by simp, ?_⟩, ?_⟩
      · rintro ⟨rfl⟩
        have hbuf := h.bufNo rfl
        simp [Writer.scan, hbuf, scanExclusion_nil]
      · rw [show (w.scan (some text) mac).noWrite =
          (scanExclusion mac (text.length + 1) text w.bufNo).1 from rfl, hiff]
        refine or_iff_left ?_
        rintro ⟨rfl, hbuf⟩
        rw [h.bufNo rfl] at hbuf
        exact macText_ne_nil mac (List.infix_nil.mp hbuf)

theorem ListedInPiece.listed {mac : BitVec 48} (h : ListedInPiece exclusion mac) :
    Listed exclusion mac := by
  cases exclusion with
  | none => exact h
  | some text =>
      obtain ⟨piece, hpiece, hinfix⟩ := h
      exact hinfix.trans ((List.takeWhile_prefix _).isInfix.trans (infix_of_pieces hpiece))

/-! ## What is written -/

/-- The slot is written: it is in use, not blank, and the scan does not find it. -/
def Written (exclusion : Option (List UInt8)) (slot : DhcpOfferedAddr) : Prop :=
  slot.yiaddr ≠ 0#32 ∧ slot.chaddr ≠ blankChaddr ∧ ¬ ListedInPiece exclusion slot.chaddr.mac

instance (exclusion : Option (List UInt8)) (slot : DhcpOfferedAddr) :
    Decidable (Written exclusion slot) := inferInstanceAs (Decidable (_ ∧ _ ∧ _))

/-- A reserved address: in use, but nobody's. -/
def Reserved (slot : DhcpOfferedAddr) : Prop :=
  slot.yiaddr ≠ 0#32 ∧ slot.chaddr = blankChaddr

instance (slot : DhcpOfferedAddr) : Decidable (Reserved slot) :=
  inferInstanceAs (Decidable (_ ∧ _))

def Server.record (env : Env) (s : Server) (slot : DhcpOfferedAddr) : DhcpOfferedAddr :=
  { slot with expires := s.leaseTime env slot }

theorem WriterOk.openExclusion {w : Writer} (h : WriterOk exclusion w) :
    WriterOk exclusion (w.openExclusion exclusion) ∧
    (w.openExclusion exclusion).file = w.file ∧
    (w.openExclusion exclusion).closed = w.closed ∧
    (w.openExclusion exclusion).opened = w.opened + if exclusion.isSome then 1 else 0 := by
  cases exclusion with
  | none => exact ⟨h, rfl, rfl, rfl⟩
  | some text => exact ⟨⟨by simp, h.bufNo⟩, rfl, rfl, rfl⟩

theorem Writer.scan_files (w : Writer) (exclusion : Option (List UInt8)) (mac : BitVec 48) :
    (w.scan exclusion mac).file = w.file ∧ (w.scan exclusion mac).opened = w.opened ∧
    (w.scan exclusion mac).closed = w.closed + if exclusion.isSome then 1 else 0 := by
  cases exclusion <;> exact ⟨rfl, rfl, rfl⟩

/-- One turn of the loop of `write_leases`: the record it adds, and the file it leaves open. -/
theorem WriterOk.writeSlot {w : Writer} (h : WriterOk exclusion w) (env : Env) (s : Server)
    (slot : DhcpOfferedAddr) :
    WriterOk exclusion (s.writeSlot env exclusion w slot) ∧
    (s.writeSlot env exclusion w slot).file =
      w.file ++ (if Written exclusion slot then recordBytes (s.record env slot) else []) ∧
    (s.writeSlot env exclusion w slot).opened + w.closed =
      (s.writeSlot env exclusion w slot).closed + w.opened +
        if exclusion.isSome ∧ Reserved slot then 1 else 0 := by
  unfold Server.writeSlot
  by_cases hy : slot.yiaddr = 0#32
  · simp [hy, h, Written, Reserved, Nat.add_comm]
  obtain ⟨hopen, hofile, hoclosed, hoopened⟩ := h.openExclusion
  by_cases hb : slot.chaddr = blankChaddr
  · simp only [hy, hb, if_false, if_true]
    refine ⟨hopen, by simp [hofile, Written, hb], ?_⟩
    simp only [Reserved, hy, hb, ne_eq, not_false_eq_true, and_true]
    omega
  obtain ⟨hscan, hfound⟩ := hopen.scan slot.chaddr.mac
  obtain ⟨hsfile, hsopened, hsclosed⟩ :=
    (w.openExclusion exclusion).scan_files exclusion slot.chaddr.mac
  simp only [hy, hb, if_false]
  by_cases hlisted : ListedInPiece exclusion slot.chaddr.mac
  · rw [if_pos (hfound.mpr hlisted)]
    refine ⟨hscan, by simp [hsfile, hofile, Written, hlisted], ?_⟩
    simp only [Reserved, hb, and_false, if_false]
    omega
  · rw [if_neg (mt hfound.mp hlisted)]
    refine ⟨⟨hscan.noWrite, hscan.bufNo⟩, ?_, ?_⟩
    · simp [hsfile, hofile, Written, hy, hb, hlisted, Server.record]
    · simp only [Reserved, hb, and_false, if_false]
      omega

/-- The loop of `write_leases`. -/
theorem WriterOk.writeSlots {w : Writer} (h : WriterOk exclusion w) (env : Env) (s : Server)
    (slots : List DhcpOfferedAddr) :
    (slots.foldl (s.writeSlot env exclusion) w).file =
      w.file ++ ((slots.filter (Written exclusion)).map (s.record env)).flatMap recordBytes ∧
    (slots.foldl (s.writeSlot env exclusion) w).opened + w.closed =
      (slots.foldl (s.writeSlot env exclusion) w).closed + w.opened +
        slots.countP fun slot => exclusion.isSome ∧ Reserved slot := by
  induction slots generalizing w with
  | nil => simp [Nat.add_comm]
  | cons slot rest ih =>
      obtain ⟨hok, hfile, hfiles⟩ := h.writeSlot env s slot
      obtain ⟨hfile', hfiles'⟩ := ih hok
      rw [List.foldl_cons, List.countP_cons]
      constructor
      · rw [hfile', hfile]
        by_cases hw : Written exclusion slot <;> simp [hw]
      · simp only [decide_eq_true_eq]
        omega

/-- What `write_leases` leaves in the lease file. -/
theorem writeLeases_file (env : Env) (s : Server) (exclusion : Option (List UInt8)) :
    (s.writeLeases env exclusion).file =
      ((((List.range s.config.maxLeases).map s.leases).filter (Written exclusion)).map
        (s.record env)).flatMap recordBytes := by
  have hstart : WriterOk exclusion ⟨[], [], false, 1, 0⟩ := ⟨fun _ => rfl, fun _ => rfl⟩
  exact (hstart.writeSlots env s _).1

/-- It closes what it opened unless the exclusion list was opened for a reserved address. -/
theorem writeLeases_balanced_iff (env : Env) (s : Server) (exclusion : Option (List UInt8)) :
    (s.writeLeases env exclusion).closed = (s.writeLeases env exclusion).opened ↔
      exclusion = none ∨ ∀ i < s.config.maxLeases, ¬ Reserved (s.leases i) := by
  have hstart : WriterOk exclusion ⟨[], [], false, 1, 0⟩ := ⟨fun _ => rfl, fun _ => rfl⟩
  have hfiles := (hstart.writeSlots env s ((List.range s.config.maxLeases).map s.leases)).2
  have hbalance : (s.writeLeases env exclusion).closed = (s.writeLeases env exclusion).opened ↔
      ((List.range s.config.maxLeases).map s.leases).countP
        (fun slot => exclusion.isSome ∧ Reserved slot) = 0 := by
    unfold Server.writeLeases
    dsimp only at hfiles ⊢
    omega
  rw [hbalance, List.countP_eq_zero]
  cases exclusion <;> simp

/-! ## Loading into an empty table -/

/-- The first slots hold `slots`, the others are empty. -/
def FilledWith (s : Server) (slots : List DhcpOfferedAddr) : Prop :=
  ∀ j < s.config.maxLeases, s.leases j = slots.getD j emptySlot

/-- The slot a record is loaded into holds what it says, with its time counted from now. -/
def loaded (env : Env) (record : DhcpOfferedAddr) : DhcpOfferedAddr :=
  { record with
    expires := (env.sysTime + record.expires) % UInt32.size
    hostname := record.hostname.take 63 }

theorem clearMatches_emptySlot (chaddr : Chaddr) (yiaddr : Addr) :
    clearMatches chaddr yiaddr emptySlot = false := by
  simp only [clearMatches, emptySlot]
  grind

/-- A record that matches no slot goes to the first empty one, if the others are current. -/
theorem FilledWith.loadLease {slots : List DhcpOfferedAddr} {record : DhcpOfferedAddr}
    (h : FilledWith s slots) (hrem : s.config.remaining = true)
    (hroom : slots.length < s.config.maxLeases) (hy : record.yiaddr ≠ 0#32)
    (hmatch : ∀ slot ∈ slots, clearMatches record.chaddr record.yiaddr slot = false)
    (hcurrent : ∀ slot ∈ slots, env.sysTime ≤ slot.expires) :
    (s.loadLease env record).2 = true ∧ (s.loadLease env record).1.config = s.config ∧
    FilledWith (s.loadLease env record).1 (slots ++ [loaded env record]) := by
  have hunmatched : ∀ k < s.config.maxLeases,
      clearMatches record.chaddr record.yiaddr (s.leases k) = false := by
    intro k hk
    rw [h k hk]
    by_cases hlt : k < slots.length
    · rw [List.getD_eq_getElem _ _ hlt]
      exact hmatch _ (List.getElem_mem hlt)
    · rw [List.getD_eq_default _ _ (by omega)]
      exact clearMatches_emptySlot _ _
  have hcleared : ∀ k < s.config.maxLeases,
      (s.clearLease record.chaddr record.yiaddr).leases k = slots.getD k emptySlot := by
    intro k hk
    unfold Server.clearLease
    dsimp only
    rw [if_neg (by simp [hunmatched k hk]), h k hk]
  have hpos := env.sysTime_pos
  have hold : (s.clearLease record.chaddr record.yiaddr).oldestExpiredLease env =
      some slots.length := by
    have hempty : slots.getD slots.length emptySlot = emptySlot :=
      List.getD_eq_default _ _ le_rfl
    apply Server.oldestExpiredLease_eq
    · exact hroom
    · rw [hcleared _ hroom, hempty]
      exact hpos
    · intro j hj
      rw [hcleared _ hroom, hempty, hcleared j hj]
      refine ⟨Nat.zero_le _, fun hlt => ?_⟩
      rw [List.getD_eq_getElem _ _ hlt]
      exact Nat.lt_of_lt_of_le hpos (hcurrent _ (List.getElem_mem hlt))
  have hres : (s.addLease env record.chaddr record.yiaddr record.expires).2 =
      some slots.length := by
    simp [Server.addLease, hy, hold]
  have hload : s.loadLease env record =
      ((s.addLease env record.chaddr record.yiaddr record.expires).1.setSlot slots.length
        { (s.addLease env record.chaddr record.yiaddr record.expires).1.leases slots.length with
          hostname := record.hostname.take 63 }, true) := by
    simp only [Server.loadLease, hrem, if_true, hres]
  refine ⟨by rw [hload], by rw [hload]; exact Server.addLease_config _ _ _, ?_⟩
  obtain ⟨-, -, hc, ha, he, -⟩ := Server.addLease_some _ _ _ hres
  intro j hj
  have hj' : j < s.config.maxLeases := by
    rw [hload] at hj
    exact (congrArg ServerConfig.maxLeases (Server.addLease_config _ _ _)) ▸ hj
  rw [hload]
  by_cases hjl : j = slots.length
  · subst hjl
    rw [List.getD_append_right _ _ _ _ le_rfl, Nat.sub_self]
    simp [Server.setSlot, loaded, hc, ha, he]
  · have hslot : (s.addLease env record.chaddr record.yiaddr record.expires).1.leases j =
        slots.getD j emptySlot := by
      rw [Server.addLease_other _ _ _ hy (by rw [hres]; simpa using Ne.symm hjl),
        if_neg (by simp [hunmatched j hj']), h j hj']
    simp only [Server.setSlot, Function.update_of_ne hjl, hslot]
    by_cases hlt : j < slots.length
    · rw [List.getD_append _ _ _ _ hlt]
    · rw [List.getD_eq_default _ _ (by omega), List.getD_eq_default _ _ (by simp; omega)]

/-- Records that do not match each other fill the table in order. -/
theorem FilledWith.readLeasesLoop {slots records : List DhcpOfferedAddr} (h : FilledWith s slots)
    (hrem : s.config.remaining = true)
    (hroom : slots.length + records.length ≤ s.config.maxLeases)
    (hy : ∀ record ∈ records, record.yiaddr ≠ 0#32)
    (hmatch : ∀ slot ∈ slots, ∀ record ∈ records,
      clearMatches record.chaddr record.yiaddr slot = false)
    (hapart : records.Pairwise fun a b => clearMatches b.chaddr b.yiaddr a = false)
    (hcurrent : ∀ slot ∈ slots, env.sysTime ≤ slot.expires)
    (hfits : ∀ record ∈ records, env.sysTime + record.expires < UInt32.size) :
    (Server.readLeasesLoop env records s).config = s.config ∧
    FilledWith (Server.readLeasesLoop env records s) (slots ++ records.map (loaded env)) := by
  induction records generalizing s slots with
  | nil =>
      rw [List.map_nil, List.append_nil]
      exact ⟨rfl, h⟩
  | cons record rest ih =>
      rw [List.length_cons] at hroom
      rw [List.pairwise_cons] at hapart
      obtain ⟨hok, hconfig, hfilled⟩ := h.loadLease hrem (by omega)
        (hy record List.mem_cons_self)
        (fun slot hslot => hmatch slot hslot record List.mem_cons_self) hcurrent
      simp only [Server.readLeasesLoop, hok, if_true]
      rw [List.map_cons, List.append_cons, ← hconfig]
      refine ih hfilled (by rw [hconfig]; exact hrem) ?_
        (fun r hr => hy r (List.mem_cons_of_mem _ hr)) ?_ hapart.2 ?_
        (fun r hr => hfits r (List.mem_cons_of_mem _ hr))
      · rw [hconfig]
        simp only [List.length_append, List.length_singleton]
        omega
      · intro slot hslot r hr
        rcases List.mem_append.mp hslot with hslot | hslot
        · exact hmatch slot hslot r (List.mem_cons_of_mem _ hr)
        · rw [List.mem_singleton.mp hslot]
          exact hapart.1 r hr
      · intro slot hslot
        rcases List.mem_append.mp hslot with hslot | hslot
        · exact hcurrent slot hslot
        · rw [List.mem_singleton.mp hslot, loaded,
            Nat.mod_eq_of_lt (hfits record List.mem_cons_self)]
          exact Nat.le_add_right _ _

/-! ## The round trip -/

/-- What a round trip should keep: an address in use by a client that is not listed. -/
def Kept (exclusion : Option (List UInt8)) (slot : DhcpOfferedAddr) : Prop :=
  slot.yiaddr ≠ 0#32 ∧ slot.chaddr ≠ blankChaddr ∧ ¬ Listed exclusion slot.chaddr.mac

/-- The same client, address, name and remaining time, which is 0 once a lease has expired. -/
def SameLease (env : Env) (slot slot' : DhcpOfferedAddr) : Prop :=
  slot'.chaddr = slot.chaddr ∧ slot'.yiaddr = slot.yiaddr ∧ slot'.hostname = slot.hostname ∧
    slot'.expires - env.sysTime = slot.expires - env.sysTime

/-- Each lease to keep is in the second table exactly once, and nothing else is. -/
structure RoundTrip (env : Env) (exclusion : Option (List UInt8)) (s s' : Server) : Prop where
  kept : ∀ i < s.config.maxLeases, Kept exclusion (s.leases i) →
    ∃! j, j < s.config.maxLeases ∧ SameLease env (s.leases i) (s'.leases j)
  only : ∀ j < s.config.maxLeases, s'.leases j ≠ emptySlot →
    ∃ i < s.config.maxLeases, Kept exclusion (s.leases i) ∧
      SameLease env (s.leases i) (s'.leases j)

/-- The table emptied and loaded from what `write_leases` wrote at the same uptime. -/
def Server.reloaded (env : Env) (s : Server) (exclusion : Option (List UInt8)) : Server :=
  (s.emptied s.config s.lanIpaddr s.lanNetmask).readLeases env
    (leaseRecords (s.writeLeases env exclusion).file)

def Server.writtenSlots (s : Server) (exclusion : Option (List UInt8)) : List DhcpOfferedAddr :=
  ((List.range s.config.maxLeases).map s.leases).filter (Written exclusion)

theorem mem_writtenSlots {slot : DhcpOfferedAddr} :
    slot ∈ s.writtenSlots exclusion ↔
      (∃ i < s.config.maxLeases, s.leases i = slot) ∧ Written exclusion slot := by
  simp [Server.writtenSlots]

theorem writtenSlots_length : (s.writtenSlots exclusion).length ≤ s.config.maxLeases := by
  have hle := List.length_filter_le (fun slot => decide (Written exclusion slot))
    ((List.range s.config.maxLeases).map s.leases)
  simpa [Server.writtenSlots] using hle

/-- No two slots that are written share a client or an address. -/
theorem writtenSlots_apart (h : SlotsApart s) :
    (s.writtenSlots exclusion).Pairwise fun a b => clearMatches b.chaddr b.yiaddr a = false := by
  rw [Server.writtenSlots, List.pairwise_filter, List.pairwise_map]
  refine (List.pairwise_lt_range).imp_of_mem ?_
  intro i j hi hj hij hwi hwj
  rw [List.mem_range] at hi hj
  simp only [decide_eq_true_eq] at hwi hwj
  by_contra hmatch
  simp only [clearMatches, Bool.not_eq_false, Bool.or_eq_true, Bool.and_eq_true,
    decide_eq_true_eq] at hmatch
  have heq : i = j := by
    rcases hmatch with ⟨-, hc⟩ | ⟨-, hy⟩
    · exact h.mac i hi j hj _ (macKey_eq_some.mpr ⟨hwi.2.1, rfl⟩)
        (macKey_eq_some.mpr ⟨hwj.2.1, by rw [hc]⟩)
    · exact h.yiaddr_inj hi hj hy hwi.1
  omega

/-- The reloaded table holds the written slots in order, each with its remaining time. -/
theorem reloaded_filled (h : SlotsApart s) (hrep : ∀ i < s.config.maxLeases, Representable (s.leases i))
    (htime : env.sysTime < UInt32.size) (hrem : s.config.remaining = true) :
    (s.reloaded env exclusion).config = s.config ∧
    FilledWith (s.reloaded env exclusion)
      ((s.writtenSlots exclusion).map fun slot => loaded env (s.record env slot)) := by
  have hexp : ∀ slot ∈ s.writtenSlots exclusion,
      env.sysTime + (s.record env slot).expires < UInt32.size := by
    intro slot hslot
    obtain ⟨⟨i, hi, rfl⟩, -⟩ := mem_writtenSlots.mp hslot
    have hlt := (hrep i hi).expires
    simp only [Server.record, Server.leaseTime, hrem, if_true]
    split <;> omega
  have hparse : leaseRecords (s.writeLeases env exclusion).file =
      (s.writtenSlots exclusion).map (s.record env) := by
    rw [writeLeases_file]
    apply leaseRecords_flatMap
    intro record hrecord
    obtain ⟨slot, hslot, rfl⟩ := List.mem_map.mp hrecord
    have hfits := hexp slot hslot
    obtain ⟨⟨i, hi, rfl⟩, -⟩ := mem_writtenSlots.mp hslot
    exact ⟨by omega, (hrep i hi).hostname_length, (hrep i hi).hostname_nul⟩
  have hempty : FilledWith (s.emptied s.config s.lanIpaddr s.lanNetmask) [] := by
    intro j hj
    exact Server.emptied_leases hj
  have hlen : ((s.writtenSlots exclusion).map (s.record env)).length ≤ s.config.maxLeases := by
    rw [List.length_map]
    exact writtenSlots_length
  have hload : (Server.readLeasesLoop env ((s.writtenSlots exclusion).map (s.record env))
        (s.emptied s.config s.lanIpaddr s.lanNetmask)).config = s.config ∧
      FilledWith (Server.readLeasesLoop env ((s.writtenSlots exclusion).map (s.record env))
        (s.emptied s.config s.lanIpaddr s.lanNetmask))
        ([] ++ ((s.writtenSlots exclusion).map (s.record env)).map (loaded env)) := by
    apply hempty.readLeasesLoop
    · exact hrem
    · simpa using hlen
    · intro record hrecord
      obtain ⟨slot, hslot, rfl⟩ := List.mem_map.mp hrecord
      exact (mem_writtenSlots.mp hslot).2.1
    · simp
    · rw [List.pairwise_map]
      exact writtenSlots_apart h
    · simp
    · intro record hrecord
      obtain ⟨slot, hslot, rfl⟩ := List.mem_map.mp hrecord
      exact hexp slot hslot
  rw [Server.reloaded, Server.readLeases, hparse, Server.emptied_config,
    List.take_of_length_le hlen]
  rwa [List.nil_append, List.map_map] at hload

theorem loaded_record {slot : DhcpOfferedAddr} (hslot : Representable slot)
    (htime : env.sysTime < UInt32.size) (hrem : s.config.remaining = true) :
    SameLease env slot (loaded env (s.record env slot)) := by
  have hlt := hslot.expires
  refine ⟨rfl, rfl, List.take_of_length_le hslot.hostname_length, ?_⟩
  simp only [loaded, Server.record, Server.leaseTime, hrem, if_true]
  split
  · rw [Nat.add_zero, Nat.mod_eq_of_lt htime]
    omega
  · rw [Nat.mod_eq_of_lt (by omega)]
    omega

section Reloaded

variable (h : SlotsApart s) (hrep : ∀ i < s.config.maxLeases, Representable (s.leases i))
  (htime : env.sysTime < UInt32.size) (hrem : s.config.remaining = true)
include h hrep htime hrem

/-- A slot of the reloaded table is empty or loaded from the written slot of its number. -/
theorem reloaded_slot {j : Nat} (hj : j < s.config.maxLeases) :
    (s.reloaded env exclusion).leases j =
      ((s.writtenSlots exclusion)[j]?.map fun slot => loaded env (s.record env slot)).getD
        emptySlot := by
  obtain ⟨hconfig, hfilled⟩ := @reloaded_filled env s exclusion h hrep htime hrem
  rw [hfilled j (by rw [hconfig]; exact hj), List.getD_eq_getElem?_getD, List.getElem?_map]

theorem reloaded_written {i : Nat} (hi : i < s.config.maxLeases)
    (hw : Written exclusion (s.leases i)) :
    ∃ j < s.config.maxLeases, SameLease env (s.leases i) ((s.reloaded env exclusion).leases j) := by
  have hmem : s.leases i ∈ s.writtenSlots exclusion := mem_writtenSlots.mpr ⟨⟨i, hi, rfl⟩, hw⟩
  obtain ⟨j, hj, hget⟩ := List.mem_iff_getElem.mp hmem
  have hmax : j < s.config.maxLeases := Nat.lt_of_lt_of_le hj writtenSlots_length
  refine ⟨j, hmax, ?_⟩
  rw [reloaded_slot h hrep htime hrem hmax, List.getElem?_eq_getElem hj, hget]
  exact loaded_record (hrep i hi) htime hrem

theorem reloaded_only {j : Nat} (hj : j < s.config.maxLeases)
    (hne : (s.reloaded env exclusion).leases j ≠ emptySlot) :
    ∃ i < s.config.maxLeases, Written exclusion (s.leases i) ∧
      SameLease env (s.leases i) ((s.reloaded env exclusion).leases j) := by
  rw [reloaded_slot h hrep htime hrem hj] at hne ⊢
  cases hget : (s.writtenSlots exclusion)[j]? with
  | none =>
      rw [hget] at hne
      exact absurd rfl hne
  | some slot =>
      obtain ⟨⟨i, hi, rfl⟩, hw⟩ := mem_writtenSlots.mp (List.mem_of_getElem? hget)
      exact ⟨i, hi, hw, loaded_record (hrep i hi) htime hrem⟩

/-- No address comes back twice. -/
theorem reloaded_once {j k : Nat} (hj : j < s.config.maxLeases) (hk : k < s.config.maxLeases)
    (hy : ((s.reloaded env exclusion).leases j).yiaddr ≠ 0#32)
    (heq : ((s.reloaded env exclusion).leases j).yiaddr =
      ((s.reloaded env exclusion).leases k).yiaddr) : j = k := by
  have happart := List.pairwise_iff_getElem.mp (@writtenSlots_apart s exclusion h)
  rw [reloaded_slot h hrep htime hrem hj] at hy heq
  rw [reloaded_slot h hrep htime hrem hk] at heq
  by_cases hjl : j < (s.writtenSlots exclusion).length
  · by_cases hkl : k < (s.writtenSlots exclusion).length
    · rw [List.getElem?_eq_getElem hjl] at hy heq
      rw [List.getElem?_eq_getElem hkl] at heq
      have hy' : (s.writtenSlots exclusion)[j].yiaddr ≠ 0#32 := hy
      have heq' : (s.writtenSlots exclusion)[j].yiaddr = (s.writtenSlots exclusion)[k].yiaddr :=
        heq
      rcases Nat.lt_trichotomy j k with hlt | rfl | hlt
      · have hno := happart j k hjl hkl hlt
        simp [clearMatches, ← heq', hy'] at hno
      · rfl
      · have hno := happart k j hkl hjl hlt
        simp [clearMatches, heq', heq' ▸ hy'] at hno
    · rw [List.getElem?_eq_none (Nat.not_lt.mp hkl)] at heq
      exact absurd heq hy
  · rw [List.getElem?_eq_none (Nat.not_lt.mp hjl)] at hy
    exact absurd rfl hy

/-- The table comes back as it should if and only if the scan finds every listed address that
is in use. -/
theorem reloaded_roundTrip_iff :
    RoundTrip env exclusion s (s.reloaded env exclusion) ↔
      ∀ i < s.config.maxLeases, (s.leases i).yiaddr ≠ 0#32 → (s.leases i).chaddr ≠ blankChaddr →
        Listed exclusion (s.leases i).chaddr.mac →
        ListedInPiece exclusion (s.leases i).chaddr.mac := by
  constructor
  · intro htrip i hi hy hb hlisted
    by_contra hmiss
    obtain ⟨j, hj, hsame⟩ := reloaded_written h hrep htime hrem hi ⟨hy, hb, hmiss⟩
    have hne : (s.reloaded env exclusion).leases j ≠ emptySlot := by
      intro hempty
      rw [hempty] at hsame
      exact hy hsame.2.1.symm
    obtain ⟨i', hi', hkept, hsame'⟩ := htrip.only j hj hne
    have hii' : i = i' := h.yiaddr_inj hi hi' (hsame.2.1.symm.trans hsame'.2.1) hy
    rw [← hii'] at hkept
    exact hkept.2.2 hlisted
  · intro hfinds
    have hiff : ∀ i < s.config.maxLeases,
        (Kept exclusion (s.leases i) ↔ Written exclusion (s.leases i)) := by
      intro i hi
      constructor
      · rintro ⟨hy, hb, hnot⟩
        exact ⟨hy, hb, fun hpiece => hnot hpiece.listed⟩
      · rintro ⟨hy, hb, hnot⟩
        exact ⟨hy, hb, fun hlisted => hnot (hfinds i hi hy hb hlisted)⟩
    constructor
    · intro i hi hkept
      obtain ⟨j, hj, hsame⟩ := reloaded_written h hrep htime hrem hi ((hiff i hi).mp hkept)
      refine ⟨j, ⟨hj, hsame⟩, ?_⟩
      rintro k ⟨hk, hsame'⟩
      have hy : ((s.reloaded env exclusion).leases k).yiaddr ≠ 0#32 := by
        rw [hsame'.2.1]
        exact hkept.1
      exact reloaded_once h hrep htime hrem hk hj hy (hsame'.2.1.trans hsame.2.1.symm)
    · intro j hj hne
      obtain ⟨i, hi, hw, hsame⟩ := reloaded_only h hrep htime hrem hj hne
      exact ⟨i, hi, (hiff i hi).mpr hw, hsame⟩

end Reloaded

/-- Writing and reading back keeps the leases, and closes every file, exactly if no listed
address in use lies across two pieces of the exclusion list and that list is not opened for a
reserved address. -/
theorem leaseFile_roundTrip_iff (env : Env) (s : Server) (exclusion : Option (List UInt8))
    (h : SlotsApart s) (hrep : ∀ i < s.config.maxLeases, Representable (s.leases i))
    (htime : env.sysTime < UInt32.size) (hrem : s.config.remaining = true) :
    (RoundTrip env exclusion s (s.reloaded env exclusion) ∧
      (s.writeLeases env exclusion).closed = (s.writeLeases env exclusion).opened) ↔
    (∀ i < s.config.maxLeases, (s.leases i).yiaddr ≠ 0#32 → (s.leases i).chaddr ≠ blankChaddr →
        Listed exclusion (s.leases i).chaddr.mac →
        ListedInPiece exclusion (s.leases i).chaddr.mac) ∧
    (exclusion = none ∨ ∀ i < s.config.maxLeases, ¬ Reserved (s.leases i)) := by
  rw [reloaded_roundTrip_iff h hrep htime hrem, writeLeases_balanced_iff]

/-- A client has declined the address it held, which is a reserved one now. -/
def declined : Server :=
  step
    (Server.boot calm wideConfig (some 0xc0a80101#32) 0xffffff00#32
      [⟨⟨0x020000000001#48, 0#80⟩, 0xc0a8010a#32, 3600, []⟩])
    (.packet calm (DhcpMessage.ofOptions 0x020000000001#48 0#32 [0x35, 1, 4, 0xff]))

/-- With an exclusion list, and be it empty, `write_leases` then leaves a file open. -/
theorem declined_leaves_file_open :
    TableOk declined ∧ (∀ i < declined.config.maxLeases, Representable (declined.leases i)) ∧
      declined.config.remaining = true ∧
      ¬ (RoundTrip calm (some []) declined (declined.reloaded calm (some [])) ∧
        (declined.writeLeases calm (some [])).closed =
          (declined.writeLeases calm (some [])).opened) := by
  refine ⟨?_, by decide +kernel, by decide +kernel, fun h => absurd h.2 (by decide +kernel)⟩
  apply step_tableOk
  · exact boot_tableOk calm wideConfig _ _ (by decide)
  · change _ ≠ _
    decide

def twoClients : Server :=
  Server.boot calm wideConfig (some 0xc0a80101#32) 0xffffff00#32
    [⟨⟨0x020000000001#48, 0#80⟩, 0xc0a8010a#32, 3600, [0x70, 0x63]⟩,
      ⟨⟨0x020000000002#48, 0#80⟩, 0xc0a8010b#32, 0, []⟩]

/-- The second client is in the exclusion list. -/
theorem leaseFile_roundTrip_two_clients :
    RoundTrip calm (some (macText 0x020000000002#48 ++ [0x0a])) twoClients
        (twoClients.reloaded calm (some (macText 0x020000000002#48 ++ [0x0a]))) ∧
      (twoClients.writeLeases calm (some (macText 0x020000000002#48 ++ [0x0a]))).closed =
        (twoClients.writeLeases calm (some (macText 0x020000000002#48 ++ [0x0a]))).opened :=
  (leaseFile_roundTrip_iff calm twoClients (some (macText 0x020000000002#48 ++ [0x0a]))
    (boot_tableOk calm wideConfig (some 0xc0a80101#32) 0xffffff00#32 (by decide)).apart
    (by decide +kernel) (by decide) (by decide +kernel)).mpr (by decide +kernel)

end Xwr100.Udhcpd
