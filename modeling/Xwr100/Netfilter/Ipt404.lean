import Xwr100.Lib.Buffer
import Xwr100.Lib.Bytes

/-! # The 404 target

`target` of `ipt_404.c` looks for the status line of a 404 response behind the fixed part of the
TCP header and puts a page in its place, which it assembles in `buffer_200`.  An access that lies
neither in the packet nor in that buffer ends the model's run with nothing.  The CPU is
big-endian.  What `printk` writes is left out, but for the payload that it reads.
-/

namespace Xwr100.Ipt404

open Lib Lib.Buffer

abbrev Bytes := List UInt8

def text (s : String) : Bytes := s.toList.map fun c => UInt8.ofNat c.toNat

/-! ## Checksums -/

/-- The sum of the 16-bit words of a block; a last odd byte is the high half of one. -/
def csumPartial : Bytes → Nat
  | [] => 0
  | [a] => a.toNat * 256
  | a :: b :: rest => a.toNat * 256 + b.toNat + csumPartial rest

/-- `csum_fold`: the carries are added in, and the bits are turned round. -/
def csumFold (sum : Nat) : Nat := 0xffff - if sum = 0 then 0 else (sum - 1) % 0xffff + 1

/-! ## The page -/

def buffer404 : Bytes := text "HTTP/1.1 404 Not Found\r\n"

/-- `buffer_200`, the two bytes of the literal `"\0"`. -/
def buffer200 : Bytes := [0, 0]

def statusLine : Bytes := text "HTTP/1.0 200 Ok\r\n"

/-- What the `sprintf`s after the first add, one after the other. -/
def additions (wanIpaddr : Bytes) : List Bytes :=
  [text "Server: httpd\r\n",
    text "Date:  Mon, 13 Oct 2008 02:10:55GMT\r\n",
    text "Cache-Control: no-cache\r\n",
    text "Content-Type:  text/html\r\n",
    text "Connection: close\r\n",
    text "\r\n",
    text "<HTML><HEAD>\n",
    text "<SCRIPT language=JavaScript>\n",
    text "function init() \x7b\n",
    text "var job = location.host + location.pathname;\n",
    text "var job = job.replace(/ /g, '+');\n",
    text "window.location = 'http://websearch.linksys.com/?eg=' + '" ++ wanIpaddr ++
      text "' + '&job=' + job;\x7d\n",
    text "</SCRIPT></HEAD><BODY onload=init()></BODY></HTML>\n"]

/-- `sprintf(buffer_200, "%s...", buffer_200)` -/
def addTo (page : Bytes) (addition : Bytes) : Option Bytes := do
  let s ← marked 0 page
  store page 0 (s ++ addition ++ [0])

def assemble (wanIpaddr : Bytes) (page : Bytes) : Option Bytes := do
  let page ← store page 0 (statusLine ++ [0])
  (additions wanIpaddr).foldlM addTo page

/-! ## The packet -/

/-- `memcmp` against what stands in memory: whether all is the same.  It stops at the first
difference. -/
def memcmp : Bytes → Bytes → Option Bool
  | _, [] => some true
  | [], _ :: _ => none
  | b :: rest, c :: cs => if b = c then memcmp rest cs else some false

/-- `memset`; a negative size is a huge one. -/
def memset (l : Bytes) (pos : Nat) (c : UInt8) (size : Int) : Option Bytes :=
  if size < 0 then none else store l pos (List.replicate size.toNat c)

/-- A 16-bit field. -/
def readWord (packet : Bytes) (pos : Nat) : Option Nat := (slice packet pos 2).map ofBigEndian

def writeWord (packet : Bytes) (pos : Nat) (v : Nat) : Option Bytes :=
  store packet pos (bigEndian 2 v)

def fixIp (packet : Bytes) (ihl : Nat) (newlen : Int) : Option Bytes := do
  let packet ← writeWord packet 10 0
  let totLen ← readWord packet 2
  let packet ← writeWord packet 2 ((totLen - newlen) % 65536).toNat
  let header ← slice packet 0 (ihl * 4)
  writeWord packet 10 (csumFold (csumPartial header))

/-- The checksum of the TCP segment, with the addresses, the protocol and the length. -/
def fixTcp (packet : Bytes) (ihl : Nat) (datalen : Int) : Option Bytes := do
  let packet ← writeWord packet (ihl * 4 + 16) 0
  let segment ← slice packet (ihl * 4) datalen.toNat
  let addrs ← slice packet 12 8
  writeWord packet (ihl * 4 + 16)
    (csumFold (csumPartial addrs + 6 + (datalen % 65536).toNat + csumPartial segment))

structure Mem where
  packet : Bytes
  page : Bytes
  deriving DecidableEq

/-- The branch for a 404 response. -/
def rewrite (wanIpaddr : Bytes) (ihl : Nat) (m : Mem) : Option Mem := do
  let datalen : Int := m.packet.length - ihl * 4
  let payloadSize := datalen - 20
  let payload := 20 + ihl * 4
  let page ← assemble wanIpaddr m.page
  let packet ← memset m.packet payload 0 payloadSize
  let s ← marked 0 page
  let newlen := payloadSize - s.length
  let datalen := datalen - newlen
  let packet ← store packet payload (s ++ [0])
  let packet ← fixIp packet ihl newlen
  let packet ← fixTcp packet ihl datalen
  let _ ← marked 0 (packet.drop payload)
  return ⟨packet, page⟩

/-- `target`; `writable` says that `skb_make_writable` succeeds. -/
def target (writable : Bool) (wanIpaddr : Bytes) (m : Mem) : Option Mem := do
  let addr ← store (List.replicate 16 0) 0 (wanIpaddr ++ [0])
  if !writable then return m
  let first ← m.packet[0]?
  let ihl := first.toNat % 16
  let found ← memcmp (m.packet.drop (20 + ihl * 4)) buffer404
  if found then
    let wan ← marked 0 addr
    rewrite wan ihl m
  else return m

/-! ## What the target should do -/

/-- The header length in the first byte, in words. -/
def ihl (packet : Bytes) : Nat := (packet[0]?.map fun b => b.toNat % 16).getD 0

def doff (packet : Bytes) : Nat := (packet[ihl packet * 4 + 12]?.map fun b => b.toNat / 16).getD 0

structure Packet where
  bytes : Bytes
  ihl_ge : 5 ≤ ihl bytes
  doff_ge : 5 ≤ doff bytes
  headers_le : ihl bytes * 4 + doff bytes * 4 ≤ bytes.length
  totLen_eq : readWord bytes 2 = some bytes.length

namespace Packet

variable (p : Packet)

def tcp : Nat := ihl p.bytes * 4

def payload : Nat := ihl p.bytes * 4 + doff p.bytes * 4

end Packet

/-- A text for `info->wan_ipaddr`. -/
structure WanAddr where
  bytes : Bytes
  length_lt : bytes.length < 16
  noNul : 0 ∉ bytes

def redirectPage (wan : WanAddr) : Bytes := statusLine ++ (additions wan.bytes).flatten

def Starts404 (p : Packet) : Prop := slice p.bytes p.payload 24 = some buffer404

/-- The TCP header is the old one but for the checksum, and the payload is the page. -/
structure Rewritten (p : Packet) (wan : WanAddr) (q : Bytes) : Prop where
  header : slice q p.tcp 16 = slice p.bytes p.tcp 16
  options : slice q (p.tcp + 18) (doff p.bytes * 4 - 18) =
    slice p.bytes (p.tcp + 18) (doff p.bytes * 4 - 18)
  page : slice q p.payload (redirectPage wan).length = some (redirectPage wan)
  totLen : readWord q 2 = some (p.payload + (redirectPage wan).length)
  fits : p.payload + (redirectPage wan).length ≤ q.length

/-- The target ends without leaving the packet and the buffer, and changes a packet only for one
with the page, and only if it is a 404 response. -/
def TargetRight (writable : Bool) (page : Bytes) (p : Packet) (wan : WanAddr) : Prop :=
  ∃ m, target writable wan.bytes ⟨p.bytes, page⟩ = some m ∧
    (m.packet = p.bytes ∨ Rewritten p wan m.packet) ∧ (¬Starts404 p → m.packet = p.bytes)

/-! ## Comparing -/

theorem memcmp_false_iff {m cs : Bytes} :
    memcmp m cs = some false ↔ ∃ (k : Nat) (b c : UInt8), m[k]? = some b ∧ cs[k]? = some c ∧ b ≠ c := by
  induction cs generalizing m with
  | nil => simp [memcmp]
  | cons c cs ih =>
      cases m with
      | nil => simp [memcmp]
      | cons b m =>
          rw [memcmp]
          by_cases hbc : b = c
          · rw [if_pos hbc, ih]
            constructor
            · intro h
              obtain ⟨k, h⟩ := h
              exact ⟨k + 1, h⟩
            · intro h
              obtain ⟨k, b', c', hb, hc, hne⟩ := h
              cases k with
              | zero =>
                  rw [List.getElem?_cons_zero] at hb hc
                  exact absurd ((Option.some.inj hb).symm.trans (hbc.trans (Option.some.inj hc))) hne
              | succ k => exact ⟨k, b', c', hb, hc, hne⟩
          · rw [if_neg hbc]
            exact iff_of_true rfl ⟨0, b, c, rfl, rfl, hbc⟩

theorem memcmp_true_iff {m cs : Bytes} : memcmp m cs = some true ↔ cs <+: m := by
  induction cs generalizing m with
  | nil => simp [memcmp]
  | cons c cs ih =>
      cases m with
      | nil => simp [memcmp]
      | cons b m =>
          rw [memcmp, List.cons_prefix_cons]
          by_cases hbc : b = c
          · rw [if_pos hbc, ih, and_iff_right hbc.symm]
          · rw [if_neg hbc]
            exact iff_of_false (fun h => by cases h) fun h => hbc h.1.symm

/-! ## Assembling the page -/

def Holds (page s : Bytes) : Prop := 0 ∉ s ∧ ∃ rest, page = s ++ 0 :: rest

theorem Holds.length_lt {page s : Bytes} (h : Holds page s) : s.length < page.length := by
  obtain ⟨-, rest, rfl⟩ := h
  rw [List.length_append, List.length_cons]
  omega

theorem Holds.marked {page s : Bytes} (h : Holds page s) : marked 0 page = some s := by
  obtain ⟨hs, rest, rfl⟩ := h
  exact marked_append 0 hs rest

theorem holds_of_store {page page' s : Bytes} (hs : 0 ∉ s)
    (h : store page 0 (s ++ [0]) = some page') : Holds page' s ∧ page'.length = page.length := by
  refine ⟨⟨hs, ?_⟩, length_of_store h⟩
  obtain ⟨-, rfl⟩ := store_eq_some h
  exact ⟨page.drop (0 + (s ++ [0]).length), by simp⟩

/-- The texts are added as long as they fit with the terminator.  By induction on the texts. -/
theorem foldlM_addTo {xs : List Bytes} (hxs : ∀ x ∈ xs, 0 ∉ x) {page s : Bytes} (h : Holds page s) :
    ((∃ page', xs.foldlM addTo page = some page') ↔ (s ++ xs.flatten).length < page.length) ∧
      ∀ page', xs.foldlM addTo page = some page' →
        Holds page' (s ++ xs.flatten) ∧ page'.length = page.length := by
  induction xs generalizing page s with
  | nil =>
      rw [List.flatten_nil, List.append_nil]
      refine ⟨iff_of_true ⟨page, rfl⟩ h.length_lt, ?_⟩
      intro page' hpage
      obtain rfl := Option.some.inj hpage
      exact ⟨h, rfl⟩
  | cons x xs ih =>
      have hsx : 0 ∉ s ++ x := by
        rw [List.mem_append, not_or]
        exact ⟨h.1, hxs x List.mem_cons_self⟩
      have hadd : addTo page x = store page 0 (s ++ x ++ [0]) := by
        rw [addTo, h.marked]
        rfl
      rw [List.foldlM_cons, hadd, List.flatten_cons, ← List.append_assoc]
      cases hstore : store page 0 (s ++ x ++ [0]) with
      | none =>
          have hfull := store_eq_none.mp hstore
          refine ⟨iff_of_false (fun ⟨_, heq⟩ => by cases heq) ?_, fun page' heq => by cases heq⟩
          simp only [List.length_append, List.length_singleton] at hfull ⊢
          omega
      | some page₁ =>
          obtain ⟨hholds, hlength⟩ := holds_of_store hsx hstore
          have hrest := ih (fun y hy => hxs y (List.mem_cons_of_mem x hy)) hholds
          rw [hlength] at hrest
          exact hrest

theorem additions_noNul (wan : WanAddr) : ∀ x ∈ additions wan.bytes, 0 ∉ x := by
  -- Eleven fixed texts, the address between two more, and a last one.
  have hfixed : ∀ x ∈ (additions []).take 11, (0 : UInt8) ∉ x := by decide +kernel
  have hbefore : (0 : UInt8) ∉
      text "window.location = 'http://websearch.linksys.com/?eg=' + '" := by decide +kernel
  have hbehind : (0 : UInt8) ∉ text "' + '&job=' + job;\x7d\n" := by decide +kernel
  have hlast : (0 : UInt8) ∉ text "</SCRIPT></HEAD><BODY onload=init()></BODY></HTML>\n" := by
    decide +kernel
  have hsplit : additions wan.bytes = (additions []).take 11 ++
      [text "window.location = 'http://websearch.linksys.com/?eg=' + '" ++ wan.bytes ++
          text "' + '&job=' + job;\x7d\n",
        text "</SCRIPT></HEAD><BODY onload=init()></BODY></HTML>\n"] := rfl
  rw [hsplit, List.forall_mem_append]
  refine ⟨hfixed, ?_⟩
  simp only [List.forall_mem_cons, List.mem_append, not_or, List.not_mem_nil, IsEmpty.forall_iff,
    implies_true, and_true]
  exact ⟨⟨⟨hbefore, wan.noNul⟩, hbehind⟩, hlast⟩

theorem assemble_iff (wan : WanAddr) (page : Bytes) :
    ((∃ page', assemble wan.bytes page = some page') ↔
      (redirectPage wan).length < page.length) ∧
    ∀ page', assemble wan.bytes page = some page' → Holds page' (redirectPage wan) := by
  unfold assemble redirectPage
  cases hstore : store page 0 (statusLine ++ [0]) with
  | none =>
      have hfull := store_eq_none.mp hstore
      refine ⟨iff_of_false (fun ⟨_, heq⟩ => by cases heq) ?_, fun page' heq => by cases heq⟩
      simp only [List.length_append, List.length_singleton] at hfull ⊢
      omega
  | some page₁ =>
      obtain ⟨hholds, hlength⟩ := holds_of_store (by decide) hstore
      have hrest := foldlM_addTo (additions_noNul wan) hholds
      rw [hlength] at hrest
      exact ⟨hrest.1, fun page' heq => (hrest.2 page' heq).1⟩

/-! ## Writing the packet -/

theorem writeWord_isSome (l : Bytes) (pos v : Nat) (h : pos + 2 ≤ l.length) :
    ∃ l', writeWord l pos v = some l' :=
  (store_isSome_iff l pos _).mpr (by rw [length_bigEndian]; exact h)

theorem slice_writeWord {l l' : Bytes} {pos at_ n v : Nat} (h : writeWord l pos v = some l')
    (hbeside : at_ + n ≤ pos ∨ pos + 2 ≤ at_) : slice l' at_ n = slice l at_ n :=
  slice_store h (by rw [length_bigEndian]; exact hbeside)

theorem readWord_writeWord {l l' : Bytes} {pos v : Nat} (h : writeWord l pos v = some l')
    (hv : v < 65536) : readWord l' pos = some v := by
  have hself := slice_store_self h
  rw [length_bigEndian] at hself
  have hfits : v >>> (8 * 2) = 0 := by
    rw [Nat.shiftRight_eq_div_pow]
    exact Nat.div_eq_of_lt hv
  rw [readWord, hself, Option.map_some, ofBigEndian_bigEndian hfits]

theorem readWord_congr {l l' : Bytes} {pos : Nat} (h : slice l' pos 2 = slice l pos 2) :
    readWord l' pos = readWord l pos := by
  rw [readWord, readWord, h]

theorem fixIp_spec {l : Bytes} {totLen : Nat} (ihl : Nat) (newlen : Int) (hihl : ihl * 4 ≤ l.length)
    (hl : 12 ≤ l.length) (htot : readWord l 2 = some totLen) :
    ∃ q, fixIp l ihl newlen = some q ∧ q.length = l.length ∧
      readWord q 2 = some ((totLen - newlen) % 65536).toNat ∧
      ∀ at_ n, 12 ≤ at_ → slice q at_ n = slice l at_ n := by
  obtain ⟨l₁, h₁⟩ := writeWord_isSome l 10 0 (by omega)
  have hlen₁ := length_of_store h₁
  have htot₁ : readWord l₁ 2 = some totLen :=
    (readWord_congr (slice_writeWord h₁ (.inl (by omega)))).trans htot
  obtain ⟨l₂, h₂⟩ :=
    writeWord_isSome l₁ 2 ((totLen - newlen) % 65536).toNat (by omega)
  have hlen₂ := length_of_store h₂
  have hheader : slice l₂ 0 (ihl * 4) = some ((l₂.drop 0).take (ihl * 4)) := slice_of_le (by omega)
  obtain ⟨q, h₃⟩ := writeWord_isSome l₂ 10
    (csumFold (csumPartial ((l₂.drop 0).take (ihl * 4)))) (by omega)
  refine ⟨q, ?_, ?_, ?_, ?_⟩
  · simp only [fixIp, h₁, htot₁, h₂, hheader, h₃, Option.bind_eq_bind, Option.bind_some]
  · rw [length_of_store h₃, hlen₂, hlen₁]
  · rw [readWord_congr (slice_writeWord h₃ (.inl (by omega)))]
    exact readWord_writeWord h₂ (by omega)
  · intro at_ n hat
    rw [slice_writeWord h₃ (.inr (by omega)), slice_writeWord h₂ (.inr (by omega)),
      slice_writeWord h₁ (.inr (by omega))]

theorem fixTcp_spec (l : Bytes) (ihl : Nat) (datalen : Int)
    (hdata : ihl * 4 + datalen.toNat ≤ l.length) (hihl : 5 ≤ ihl) (hmin : 20 ≤ datalen) :
    ∃ q, fixTcp l ihl datalen = some q ∧ q.length = l.length ∧
      ∀ at_ n, at_ + n ≤ ihl * 4 + 16 ∨ ihl * 4 + 18 ≤ at_ → slice q at_ n = slice l at_ n := by
  obtain ⟨l₁, h₁⟩ := writeWord_isSome l (ihl * 4 + 16) 0 (by omega)
  have hlen₁ := length_of_store h₁
  have hsegment : slice l₁ (ihl * 4) datalen.toNat =
      some ((l₁.drop (ihl * 4)).take datalen.toNat) := slice_of_le (by omega)
  have haddrs : slice l₁ 12 8 = some ((l₁.drop 12).take 8) := slice_of_le (by omega)
  obtain ⟨q, h₂⟩ := writeWord_isSome l₁ (ihl * 4 + 16)
    (csumFold (csumPartial ((l₁.drop 12).take 8) + 6 + (datalen % 65536).toNat +
      csumPartial ((l₁.drop (ihl * 4)).take datalen.toNat))) (by omega)
  refine ⟨q, ?_, ?_, ?_⟩
  · simp only [fixTcp, h₁, hsegment, haddrs, h₂, Option.bind_eq_bind, Option.bind_some]
  · rw [length_of_store h₂, hlen₁]
  · intro at_ n hbeside
    rw [slice_writeWord h₂ (by omega), slice_writeWord h₁ (by omega)]

structure Replaced (p : Packet) (wan : WanAddr) (q : Bytes) : Prop where
  length : q.length = p.bytes.length
  header : slice q p.tcp 16 = slice p.bytes p.tcp 16
  urgent : slice q (p.tcp + 18) 2 = slice p.bytes (p.tcp + 18) 2
  page : slice q (20 + p.tcp) (redirectPage wan).length = some (redirectPage wan)
  totLen : readWord q 2 = some (20 + p.tcp + (redirectPage wan).length)

theorem Packet.length_lt (p : Packet) : p.bytes.length < 65536 := by
  have htot := p.totLen_eq
  unfold readWord at htot
  obtain ⟨x, hx, heq⟩ := Option.map_eq_some_iff.mp htot
  obtain ⟨hlen, -⟩ := length_of_slice hx
  rw [← heq]
  match x, hlen with
  | [a, b], _ =>
      have ha := a.toNat_lt
      have hb := b.toNat_lt
      simp only [ofBigEndian, List.foldl_cons, List.foldl_nil]
      omega

theorem redirectPage_noNul (wan : WanAddr) : 0 ∉ redirectPage wan := by
  rw [redirectPage, List.mem_append, not_or]
  refine ⟨by decide, ?_⟩
  intro hmem
  obtain ⟨x, hx, hzero⟩ := List.mem_flatten.mp hmem
  exact additions_noNul wan x hx hzero

/-- A text that stands in a buffer with its terminator is found there. -/
theorem marked_of_slice {l s : Bytes} {pos : Nat} (hs : 0 ∉ s)
    (h : slice l pos (s ++ [0]).length = some (s ++ [0])) : marked 0 (l.drop pos) = some s := by
  obtain ⟨-, hle⟩ := length_of_slice h
  rw [slice_of_le hle] at h
  have hsplit : l.drop pos = s ++ 0 :: (l.drop pos).drop (s ++ [0]).length := by
    have htake := List.take_append_drop (s ++ [0]).length (l.drop pos)
    rw [Option.some.inj h, List.append_assoc] at htake
    exact htake.symm
  rw [hsplit]
  exact marked_append 0 hs _

theorem fill_spec (p : Packet) (wan : WanAddr) {l : Bytes} (hlength : l.length = p.bytes.length)
    (hbefore : ∀ at_ n, at_ + n ≤ 20 + p.tcp → slice l at_ n = slice p.bytes at_ n)
    (hfits : 20 + p.tcp + (redirectPage wan).length < p.bytes.length) :
    ∃ l₁ l₂ q, store l (20 + p.tcp) (redirectPage wan ++ [0]) = some l₁ ∧
      fixIp l₁ (ihl p.bytes) ((p.bytes.length : Int) - p.tcp - 20 - (redirectPage wan).length) =
        some l₂ ∧
      fixTcp l₂ (ihl p.bytes) (20 + (redirectPage wan).length) = some q ∧
      marked 0 (q.drop (20 + p.tcp)) = some (redirectPage wan) ∧ Replaced p wan q := by
  have hihl := p.ihl_ge
  have hmax := p.length_lt
  have htcp : p.tcp = ihl p.bytes * 4 := rfl
  have hwith : (redirectPage wan ++ [0]).length = (redirectPage wan).length + 1 := by
    rw [List.length_append, List.length_singleton]
  obtain ⟨l₁, h₁⟩ := (store_isSome_iff l (20 + p.tcp) (redirectPage wan ++ [0])).mpr (by omega)
  have hlen₁ := length_of_store h₁
  have hbefore₁ : ∀ at_ n, at_ + n ≤ 20 + p.tcp → slice l₁ at_ n = slice p.bytes at_ n := by
    intro at_ n hle
    rw [slice_store h₁ (.inl hle), hbefore at_ n hle]
  have htot : readWord l₁ 2 = some p.bytes.length :=
    (readWord_congr (hbefore₁ 2 2 (by omega))).trans p.totLen_eq
  obtain ⟨l₂, h₂, hlen₂, htot₂, hkeep₂⟩ := fixIp_spec (ihl p.bytes)
    ((p.bytes.length : Int) - p.tcp - 20 - (redirectPage wan).length) (by omega) (by omega) htot
  obtain ⟨q, h₃, hlen₃, hkeep₃⟩ := fixTcp_spec l₂ (ihl p.bytes)
    (20 + (redirectPage wan).length) (by omega) hihl (by omega)
  have hkeep : ∀ at_ n, 12 ≤ at_ → at_ + n ≤ p.tcp + 16 ∨ p.tcp + 18 ≤ at_ →
      slice q at_ n = slice l₁ at_ n := by
    intro at_ n hat hbeside
    rw [hkeep₃ at_ n hbeside, hkeep₂ at_ n hat]
  have hpage : slice q (20 + p.tcp) (redirectPage wan ++ [0]).length =
      some (redirectPage wan ++ [0]) := by
    rw [hkeep _ _ (by omega) (.inr (by omega))]
    exact slice_store_self h₁
  refine ⟨l₁, l₂, q, h₁, h₂, h₃, marked_of_slice (redirectPage_noNul wan) hpage, ?_⟩
  refine ⟨by omega, ?_, ?_, ?_, ?_⟩
  · rw [hkeep _ _ (by omega) (.inl (by omega)), hbefore₁ _ _ (by omega)]
  · rw [hkeep _ _ (by omega) (.inr (by omega)), hbefore₁ _ _ (by omega)]
  · obtain ⟨-, hle⟩ := length_of_slice hpage
    rw [slice_of_le hle] at hpage
    have htake := congrArg (List.take (redirectPage wan).length) (Option.some.inj hpage)
    rw [List.take_take, Nat.min_eq_left (by omega), List.take_left] at htake
    rw [slice_of_le (by omega), htake]
  · rw [readWord_congr (hkeep₃ 2 2 (.inl (by omega))), htot₂]
    congr 1
    omega

/-- The branch ends if the page fits in the buffer and behind the fixed header, each time with the
terminator. -/
theorem rewrite_spec (p : Packet) (wan : WanAddr) (page : Bytes) :
    ((∃ m, rewrite wan.bytes (ihl p.bytes) ⟨p.bytes, page⟩ = some m) ↔
      (redirectPage wan).length < page.length ∧
        20 + p.tcp + (redirectPage wan).length < p.bytes.length) ∧
    ∀ m, rewrite wan.bytes (ihl p.bytes) ⟨p.bytes, page⟩ = some m → Replaced p wan m.packet := by
  have hheaders := p.headers_le
  have hdoff := p.doff_ge
  have htcp : p.tcp = ihl p.bytes * 4 := rfl
  obtain ⟨hassemble, hholds⟩ := assemble_iff wan page
  cases hpage : assemble wan.bytes page with
  | none =>
      rw [hpage] at hassemble
      have hnone : rewrite wan.bytes (ihl p.bytes) ⟨p.bytes, page⟩ = none := by
        simp only [rewrite, hpage, Option.bind_eq_bind, Option.bind_none]
      rw [hnone]
      refine ⟨iff_of_false (fun ⟨_, heq⟩ => by cases heq) ?_, fun m heq => by cases heq⟩
      intro h
      obtain ⟨_, heq⟩ := hassemble.mpr h.1
      cases heq
  | some page' =>
      have hroom := hassemble.mp ⟨page', hpage⟩
      have hs := (hholds page' hpage).marked
      have hsize : (p.bytes.length : Int) - ihl p.bytes * 4 - 20 =
          (p.bytes.length - p.tcp - 20 : Nat) := by omega
      have hnewlen : ((p.bytes.length - p.tcp - 20 : Nat) : Int) - (redirectPage wan).length =
          (p.bytes.length : Int) - p.tcp - 20 - (redirectPage wan).length := by omega
      have hdatalen : (p.bytes.length : Int) - ihl p.bytes * 4 -
          ((p.bytes.length : Int) - p.tcp - 20 - (redirectPage wan).length) =
            20 + (redirectPage wan).length := by omega
      have hpayload : 20 + ihl p.bytes * 4 = 20 + p.tcp := rfl
      obtain ⟨l, hl⟩ := (store_isSome_iff p.bytes (20 + p.tcp)
        (List.replicate (p.bytes.length - p.tcp - 20) (0 : UInt8))).mpr (by
          rw [List.length_replicate]
          omega)
      have hmemset : memset p.bytes (20 + p.tcp) 0 (p.bytes.length - p.tcp - 20 : Nat) = some l := by
        rw [memset, if_neg (by omega), Int.toNat_natCast]
        exact hl
      have hrun : rewrite wan.bytes (ihl p.bytes) ⟨p.bytes, page⟩ =
          (store l (20 + p.tcp) (redirectPage wan ++ [0])).bind fun l₁ =>
            (fixIp l₁ (ihl p.bytes)
              ((p.bytes.length : Int) - p.tcp - 20 - (redirectPage wan).length)).bind fun l₂ =>
              (fixTcp l₂ (ihl p.bytes) (20 + (redirectPage wan).length)).bind fun q =>
                (marked 0 (q.drop (20 + p.tcp))).bind fun _ => some ⟨q, page'⟩ := by
        simp only [rewrite, hpage, hpayload, hsize, hmemset, hs, hnewlen, hdatalen,
          Option.bind_eq_bind, Option.bind_some]
        rfl
      have hlength := length_of_store hl
      by_cases hfits : 20 + p.tcp + (redirectPage wan).length < p.bytes.length
      · obtain ⟨l₁, l₂, q, h₁, h₂, h₃, h₄, hq⟩ :=
          fill_spec p wan hlength (fun at_ n hle => slice_store hl (.inl hle)) hfits
        simp only [h₁, h₂, h₃, h₄, Option.bind_some] at hrun
        rw [hrun]
        refine ⟨iff_of_true ⟨_, rfl⟩ ⟨hroom, hfits⟩, ?_⟩
        intro m hm
        obtain rfl := Option.some.inj hm
        exact hq
      · have hnone : store l (20 + p.tcp) (redirectPage wan ++ [0]) = none := by
          rw [store_eq_none, List.length_append, List.length_singleton]
          omega
        rw [hrun, hnone, Option.bind_none]
        exact ⟨iff_of_false (fun ⟨_, heq⟩ => by cases heq) fun h => hfits h.2,
          fun m heq => by cases heq⟩

/-! ## The target -/

theorem WanAddr.stored (wan : WanAddr) :
    ∃ addr, store (List.replicate 16 (0 : UInt8)) 0 (wan.bytes ++ [0]) = some addr := by
  have hlt := wan.length_lt
  rw [store_isSome_iff, List.length_append, List.length_singleton, List.length_replicate]
  omega

theorem target_not_writable (p : Packet) (wan : WanAddr) (page : Bytes) :
    target false wan.bytes ⟨p.bytes, page⟩ = some ⟨p.bytes, page⟩ := by
  obtain ⟨addr, haddr⟩ := wan.stored
  simp only [target, haddr, Option.bind_eq_bind, Option.bind_some]
  rfl

/-- The comparison starts behind the fixed part of the TCP header. -/
theorem target_writable (p : Packet) (wan : WanAddr) (page : Bytes) :
    target true wan.bytes ⟨p.bytes, page⟩ =
      (memcmp (p.bytes.drop (20 + p.tcp)) buffer404).bind fun found =>
        if found then rewrite wan.bytes (ihl p.bytes) ⟨p.bytes, page⟩
        else some ⟨p.bytes, page⟩ := by
  have hihl := p.ihl_ge
  have hheaders := p.headers_le
  obtain ⟨addr, haddr⟩ := wan.stored
  have hwan := (holds_of_store wan.noNul haddr).1.marked
  have hfirst : p.bytes[0]? = some p.bytes[0] := List.getElem?_eq_getElem (by omega)
  have hihl' : p.bytes[0].toNat % 16 = ihl p.bytes := by
    rw [ihl, hfirst]
    rfl
  have htcp : p.tcp = ihl p.bytes * 4 := rfl
  simp only [target, haddr, hfirst, hihl', hwan, htcp, Option.bind_eq_bind, Option.bind_some,
    Bool.not_true, Bool.false_eq_true, if_false]
  rfl

/-- Within the packet, the bytes behind the fixed TCP header differ from the status line. -/
def Differs (p : Packet) : Prop :=
  ∃ (k : Nat) (b c : UInt8), p.bytes[20 + p.tcp + k]? = some b ∧ buffer404[k]? = some c ∧ b ≠ c

theorem memcmp_differs (p : Packet) :
    memcmp (p.bytes.drop (20 + p.tcp)) buffer404 = some false ↔ Differs p := by
  rw [memcmp_false_iff, Differs]
  simp only [List.getElem?_drop]

/-- All of the status line stands behind the fixed TCP header. -/
theorem memcmp_found (p : Packet) :
    memcmp (p.bytes.drop (20 + p.tcp)) buffer404 = some true ↔
      slice p.bytes (20 + p.tcp) 24 = some buffer404 := by
  rw [memcmp_true_iff, List.prefix_iff_eq_take]
  have hlength : buffer404.length = 24 := by decide
  rw [hlength]
  constructor
  · intro h
    have hle := congrArg List.length h
    rw [hlength, List.length_take, List.length_drop] at hle
    rw [slice_of_le (by omega), ← h]
  · intro h
    rw [slice_of_le (length_of_slice h).2] at h
    exact (Option.some.inj h).symm

theorem payload_of_doff {p : Packet} (h : doff p.bytes = 5) : p.payload = 20 + p.tcp := by
  rw [Packet.payload, Packet.tcp, h]
  omega

/-- Without options, a replaced packet is a rewritten one. -/
theorem Replaced.rewritten {p : Packet} {wan : WanAddr} {q : Bytes} (h : Replaced p wan q)
    (hdoff : doff p.bytes = 5) : Rewritten p wan q := by
  have hpayload := payload_of_doff hdoff
  refine ⟨h.header, ?_, ?_, ?_, ?_⟩
  · rw [hdoff]
    exact h.urgent
  · rw [hpayload]
    exact h.page
  · rw [hpayload]
    exact h.totLen
  · rw [hpayload]
    exact (length_of_slice h.page).2

/-- The page differs from a 404 response in its eighth byte. -/
theorem Replaced.ne {p : Packet} {wan : WanAddr} {q : Bytes} (h : Replaced p wan q)
    (hfound : slice p.bytes (20 + p.tcp) 24 = some buffer404) : q ≠ p.bytes := by
  rintro rfl
  have hpage := h.page
  rw [slice_of_le (length_of_slice hpage).2] at hpage
  rw [slice_of_le (length_of_slice hfound).2] at hfound
  have hold := congrArg (fun l : Bytes => l[7]?) (Option.some.inj hfound)
  have hnew := congrArg (fun l : Bytes => l[7]?) (Option.some.inj hpage)
  have hlong : 7 < (redirectPage wan).length := by
    rw [redirectPage, List.length_append]
    exact Nat.lt_of_lt_of_le (by decide) (Nat.le_add_right _ _)
  have hbyte : (redirectPage wan)[7]? = statusLine[7]? :=
    List.getElem?_append_left (by decide)
  rw [List.getElem?_take_of_lt (by omega)] at hold
  rw [List.getElem?_take_of_lt hlong, hold, hbyte] at hnew
  exact absurd hnew (by decide)

/-- With any storage behind `buffer_200`: the target is right if the comparison ends at a
difference, or if a 404 response without TCP options has room for the page and the storage has. -/
theorem right_of_storage_iff (page : Bytes) (p : Packet) (wan : WanAddr) :
    TargetRight true page p wan ↔ Differs p ∨ (Starts404 p ∧ doff p.bytes = 5 ∧
      (redirectPage wan).length < page.length ∧
      p.payload + (redirectPage wan).length < p.bytes.length) := by
  have hnotboth : Differs p → ¬slice p.bytes (20 + p.tcp) 24 = some buffer404 := by
    intro hdiffers hfound
    rw [← memcmp_differs] at hdiffers
    rw [← memcmp_found, hdiffers] at hfound
    cases hfound
  unfold TargetRight
  rw [target_writable]
  cases hcmp : memcmp (p.bytes.drop (20 + p.tcp)) buffer404 with
  | none =>
      refine iff_of_false (fun ⟨_, heq, _⟩ => by cases heq) ?_
      rintro (hdiffers | ⟨hstarts, hdoff, -, -⟩)
      · rw [← memcmp_differs, hcmp] at hdiffers
        cases hdiffers
      · rw [Starts404, payload_of_doff hdoff, ← memcmp_found, hcmp] at hstarts
        cases hstarts
  | some found =>
      rw [Option.bind_some]
      cases found with
      | false =>
          exact iff_of_true ⟨_, rfl, .inl rfl, fun _ => rfl⟩ (.inl ((memcmp_differs p).mp hcmp))
      | true =>
          have hfound := (memcmp_found p).mp hcmp
          obtain ⟨hends, hreplaced⟩ := rewrite_spec p wan page
          rw [if_pos rfl]
          constructor
          · intro h
            obtain ⟨m, hm, hchange, hkeep⟩ := h
            have hq := hreplaced m hm
            have hrewritten := hchange.resolve_left (hq.ne hfound)
            have hsame := hrewritten.totLen.symm.trans hq.totLen
            have hdoff : doff p.bytes = 5 := by
              have heq := Option.some.inj hsame
              unfold Packet.payload Packet.tcp at heq
              omega
            have hpayload := payload_of_doff hdoff
            obtain ⟨hroom, hfits⟩ := hends.mp ⟨m, hm⟩
            right
            refine ⟨?_, hdoff, hroom, hpayload ▸ hfits⟩
            rw [Starts404, hpayload]
            exact hfound
          · rintro (hdiffers | ⟨hstarts, hdoff, hroom, hfits⟩)
            · exact absurd hfound (hnotboth hdiffers)
            · have hpayload := payload_of_doff hdoff
              obtain ⟨m, hm⟩ := hends.mpr ⟨hroom, hpayload ▸ hfits⟩
              exact ⟨m, hm, .inr ((hreplaced m hm).rewritten hdoff), fun hnot => absurd hstarts hnot⟩

/-- With the two bytes that `buffer_200` has, it is right exactly when the packet stays as it is: the
private copy fails, or the packet has a byte that differs from the status line. -/
theorem target_right_iff (writable : Bool) (p : Packet) (wan : WanAddr) :
    TargetRight writable buffer200 p wan ↔ writable = false ∨ Differs p := by
  cases writable with
  | false =>
      refine iff_of_true ⟨_, target_not_writable p wan buffer200, .inl rfl, fun _ => rfl⟩ (.inl rfl)
  | true =>
      have hsmall : ¬(redirectPage wan).length < buffer200.length := by
        have hline : statusLine.length = 17 := by decide
        have hbuffer : buffer200.length = 2 := rfl
        rw [redirectPage, List.length_append]
        omega
      rw [right_of_storage_iff]
      simp only [hsmall, false_and, and_false, or_false, Bool.true_eq_false, false_or]

/-- An IP and a TCP header without options, for a packet of fewer than 256 bytes. -/
def plainHeaders (totLen : UInt8) : Bytes :=
  [0x45, 0, 0, totLen, 0, 0, 0, 0, 64, 6, 0, 0, 10, 0, 0, 1, 10, 0, 0, 2] ++
    List.replicate 12 0 ++ [0x50] ++ List.replicate 7 0

/-- The status line of a 404 response, and nothing behind it. -/
def notFound : Packet where
  bytes := plainHeaders 64 ++ buffer404
  ihl_ge := by decide
  doff_ge := by decide
  headers_le := by decide
  totLen_eq := by decide

/-- A segment without data. -/
def emptySegment : Packet where
  bytes := plainHeaders 40
  ihl_ge := by decide
  doff_ge := by decide
  headers_le := by decide
  totLen_eq := by decide

/-- 10.0.0.1 -/
def someWan : WanAddr := ⟨text "10.0.0.1", by decide, by decide⟩

/-- A 404 response makes the target write behind `buffer_200`, and a segment without data makes it
read behind the packet. -/
theorem target_leaves_storage :
    target true someWan.bytes ⟨notFound.bytes, buffer200⟩ = none ∧
      target true someWan.bytes ⟨emptySegment.bytes, buffer200⟩ = none ∧
      ¬TargetRight true buffer200 notFound someWan ∧
      ¬TargetRight true buffer200 emptySegment someWan := by
  have hresponse : target true someWan.bytes ⟨notFound.bytes, buffer200⟩ = none := by decide +kernel
  have hempty : target true someWan.bytes ⟨emptySegment.bytes, buffer200⟩ = none := by
    decide +kernel
  refine ⟨hresponse, hempty, ?_, ?_⟩
  · rintro ⟨m, hm, -⟩
    rw [hresponse] at hm
    cases hm
  · rintro ⟨m, hm, -⟩
    rw [hempty] at hm
    cases hm

end Xwr100.Ipt404
