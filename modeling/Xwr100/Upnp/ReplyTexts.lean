import Mathlib.Data.List.Infix
import Xwr100.Lib.Format
import Xwr100.Upnp.PortMap

/-!
# The texts of the replies

A handler prints the entry it reports into `result_param` and the response around it into
`resultStr`; the document that is sent is what `ixmlParseBuffer` makes of that text.  The printing
escapes nothing, so the parser finds markup where a text of the entry has it.  `ixmlparser.c` is a
parameter of the development, of which the replies need what `ReadsReplies` says.
-/

namespace Xwr100.Upnp

open Lib

/-! ## Printing -/

/-- The format of `result_param` in `GetGenericPortMappingEntry`. -/
def genericFormat : List String :=
  ["<NewRemoteHost>", "</NewRemoteHost><NewExternalPort>", "</NewExternalPort><NewProtocol>",
    "</NewProtocol><NewInternalPort>", "</NewInternalPort><NewInternalClient>",
    "</NewInternalClient><NewEnabled>", "</NewEnabled><NewPortMappingDescription>",
    "</NewPortMappingDescription><NewLeaseDuration>", "</NewLeaseDuration>"]

/-- The format of `result_param` in `GetSpecificPortMappingEntry`. -/
def specificFormat : List String :=
  ["<NewInternalPort>", "</NewInternalPort><NewInternalClient>",
    "</NewInternalClient><NewEnabled>", "</NewEnabled><NewPortMappingDescription>",
    "</NewPortMappingDescription><NewLeaseDuration>", "</NewLeaseDuration>"]

/-- The format of `resultStr`. -/
def responseFormat : List String :=
  ["<u:", "Response xmlns:u=\"", "\">\n", "\n</u:", "Response>"]

namespace PortMap

variable (p : PortMap)

def genericArgs : List String :=
  [p.remoteHost, p.externalPort, p.protocol, p.internalPort, p.internalClient,
    toString p.enabled, p.description, toString p.leaseDuration]

def specificArgs : List String :=
  [p.internalPort, p.internalClient, toString p.enabled, p.description, toString p.leaseDuration]

def genericParam : String := sprintf genericFormat p.genericArgs

def specificParam : String := sprintf specificFormat p.specificArgs

/-- The bytes of the fields an entry is reported with, its numbers printed. -/
def replyBytes : Nat := totalSize p.genericArgs

end PortMap

def resultStr (actionName resultParam : String) : String :=
  sprintf responseFormat
    [actionName, "urn:schemas-upnp-org:service:WANIPConnection:1", resultParam, actionName]

def PortMap.specificReply (p : PortMap) : String :=
  resultStr "GetSpecificPortMappingEntry" p.specificParam

def PortMap.genericReply (p : PortMap) : String :=
  resultStr "GetGenericPortMappingEntry" p.genericParam

/-! ## Reading -/

/-- A parsed reply: its elements in document order, each with the text of its first child. -/
abbrev Document := List (String × String)

/-- What `GetFirstDocumentItem` finds, with nothing for an empty element. -/
def Document.item (doc : Document) (name : String) : String := (doc.lookup name).getD ""

/-- `WHITESPACE` of `ixmlparser.c`. -/
def isWhitespace (c : Char) : Bool := c = '\n' || c = '\t' || c = '\r' || c = ' '

/-- `Parser_isXmlChar`. -/
def isXmlChar (c : Char) : Bool :=
  c = '\t' || c = '\n' || c = '\r' || (0x20 ≤ c.toNat && c.toNat ≤ 0xd7ff) ||
    (0xe000 ≤ c.toNat && c.toNat ≤ 0xfffd) || (0x10000 ≤ c.toNat && c.toNat ≤ 0x10ffff)

/-- A text that `Parser_processContent` copies as it stands, up to the end of the element: not only
white space, which it skips, and without references, tags and `]]>`. -/
def PlainText (text : String) : Prop :=
  text = "" ∨
    (∃ c ∈ text.toList, isWhitespace c = false) ∧
    (∀ c ∈ text.toList, isXmlChar c = true ∧ c ≠ '<' ∧ c ≠ '&') ∧
    ¬ "]]>".toList <:+: text.toList

instance (text : String) : Decidable (PlainText text) :=
  -- by going through the text, not through all characters
  haveI := List.decidableBEx (fun c => isWhitespace c = false) text.toList
  haveI := List.decidableBAll (fun c => isXmlChar c = true ∧ c ≠ '<' ∧ c ≠ '&') text.toList
  inferInstanceAs (Decidable (_ ∨ _))

def specificNames : List String :=
  ["NewInternalPort", "NewInternalClient", "NewEnabled", "NewPortMappingDescription",
    "NewLeaseDuration"]

namespace PortMap

/-- The texts of a specific reply have no markup. -/
structure Plain (p : PortMap) : Prop where
  internalPort : PlainText p.internalPort
  internalClient : PlainText p.internalClient
  description : PlainText p.description

def specificDocument (p : PortMap) : Document :=
  ("u:GetSpecificPortMappingEntryResponse", "") :: specificNames.zip p.specificArgs

theorem item_internalPort (p : PortMap) :
    p.specificDocument.item "NewInternalPort" = p.internalPort := rfl

theorem item_internalClient (p : PortMap) :
    p.specificDocument.item "NewInternalClient" = p.internalClient := rfl

theorem item_enabled (p : PortMap) :
    p.specificDocument.item "NewEnabled" = toString p.enabled := rfl

theorem item_description (p : PortMap) :
    p.specificDocument.item "NewPortMappingDescription" = p.description := rfl

/-- The texts that are not empty are found in the document as they were printed. -/
structure ReadIn (p : PortMap) (doc : Document) : Prop where
  internalPort : p.internalPort ≠ "" → doc.item "NewInternalPort" = p.internalPort
  internalClient : p.internalClient ≠ "" → doc.item "NewInternalClient" = p.internalClient
  description : p.description ≠ "" → doc.item "NewPortMappingDescription" = p.description

end PortMap

/-- What a reader of XML makes of the specific replies: the document they stand for where their
texts have no markup, and a text that has some is not found as it was printed. -/
structure ReadsReplies (ixmlParseBuffer : String → Option Document) : Prop where
  plain : ∀ p : PortMap, p.Stored → p.Plain →
    ixmlParseBuffer p.specificReply = some p.specificDocument
  marked : ∀ (p : PortMap) (doc : Document), p.Stored → ixmlParseBuffer p.specificReply = some doc →
    p.ReadIn doc → p.Plain

/-! ### A reader of plain replies -/

/-- The format of a whole specific reply: what stands before the first argument. -/
def replyHead : String :=
  "<u:" ++ ("GetSpecificPortMappingEntry" ++ ("Response xmlns:u=\"" ++
    ("urn:schemas-upnp-org:service:WANIPConnection:1" ++ ("\">\n" ++ "<NewInternalPort>"))))

/-- And behind each. -/
def replyPieces : List String :=
  ["</NewInternalPort><NewInternalClient>", "</NewInternalClient><NewEnabled>",
    "</NewEnabled><NewPortMappingDescription>", "</NewPortMappingDescription><NewLeaseDuration>",
    "</NewLeaseDuration>" ++ ("\n</u:" ++ ("GetSpecificPortMappingEntry" ++ "Response>"))]

theorem specificReply_eq (p : PortMap) :
    p.specificReply = sprintf (replyHead :: replyPieces) p.specificArgs := by
  simp only [PortMap.specificReply, PortMap.specificParam, PortMap.specificArgs, resultStr,
    responseFormat, specificFormat, replyHead, replyPieces, sprintf, String.append_assoc]

theorem replyPieces_head : ∀ u ∈ replyPieces, u.toList.head? = some '<' := by
  simp [replyPieces]

/-- Read the replies without markup and no others. -/
def readPlain (text : String) : Option Document :=
  match scan '<' (replyHead :: replyPieces) text.toList with
  | some [intPort, intIp, enabled, desc, duration] =>
      if PlainText intPort ∧ PlainText intIp ∧ PlainText desc then
        some (("u:GetSpecificPortMappingEntryResponse", "") ::
          specificNames.zip [intPort, intIp, enabled, desc, duration])
      else none
  | _ => none

theorem PlainText.notMem {text : String} (h : PlainText text) : '<' ∉ text.toList := by
  intro hmem
  rcases h with rfl | ⟨-, hchars, -⟩
  · simp at hmem
  · exact (hchars _ hmem).2.1 rfl

theorem notMem_nat (n : Nat) : '<' ∉ (toString n).toList := by
  intro hmem
  rw [Nat.toString_eq_ofList_toDigits, String.toList_ofList] at hmem
  exact absurd (Nat.isDigit_of_mem_toDigits (by decide) (by decide) hmem) (by decide)

theorem notMem_int (n : Int) : '<' ∉ (toString n).toList := by
  rw [Int.toString_eq_repr]
  cases n with
  | ofNat m => exact notMem_nat m
  | negSucc m =>
      show '<' ∉ ("-" ++ m.succ.repr).toList
      rw [String.toList_append, List.mem_append, not_or]
      exact ⟨by decide, notMem_nat m.succ⟩

theorem scan_specificReply {p : PortMap} (h : p.Plain) :
    scan '<' (replyHead :: replyPieces) p.specificReply.toList = some p.specificArgs := by
  rw [specificReply_eq]
  refine scan_sprintf rfl replyPieces_head ?_
  simp only [PortMap.specificArgs, List.forall_mem_cons, List.not_mem_nil, false_implies,
    implies_true, and_true]
  exact ⟨h.internalPort.notMem, h.internalClient.notMem, notMem_int p.enabled,
    h.description.notMem, notMem_int p.leaseDuration⟩

/-- What is read has no markup. -/
theorem readPlain_eq_some {text : String} {doc : Document} (h : readPlain text = some doc) :
    PlainText (doc.item "NewInternalPort") ∧ PlainText (doc.item "NewInternalClient") ∧
      PlainText (doc.item "NewPortMappingDescription") := by
  unfold readPlain at h
  split at h
  · split at h
    · rename_i hplain
      cases h
      exact hplain
    · cases h
  · cases h

/-- A text that is empty or read from somewhere has no markup if nothing that is read has. -/
theorem plainText_of_item {text item : String} (hitem : PlainText item)
    (hread : text ≠ "" → item = text) : PlainText text := by
  by_cases hempty : text = ""
  · exact .inl hempty
  · rw [← hread hempty]
    exact hitem

theorem readPlain_reads : ReadsReplies readPlain where
  plain p _ hplain := by
    unfold readPlain
    rw [scan_specificReply hplain]
    exact if_pos ⟨hplain.internalPort, hplain.internalClient, hplain.description⟩
  marked p doc _ hdoc hread := by
    obtain ⟨hport, hclient, hdesc⟩ := readPlain_eq_some hdoc
    exact ⟨plainText_of_item hport hread.internalPort,
      plainText_of_item hclient hread.internalClient, plainText_of_item hdesc hread.description⟩

end Xwr100.Upnp
