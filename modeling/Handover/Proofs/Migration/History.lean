import Handover.Proofs.Json.Layout
import Handover.Proofs.Ledger.Births
import Handover.Proofs.Migration.Lockdown
import Handover.Proofs.Text.Split

/-!
# What a viewer is shown of the history

A collection shows a viewer the entries of its history in whose written form the name of the
viewer stands in quotes. Between its quotes a written entry has its words (`HistoryEntry.words`) :
the pieces of its texts, which are the giver, the recipient and the token, and the marks of the
format around them. An entry is shown exactly if the pieces of the viewer are among its words
(`Collection.entryNames_iff`).

For a viewer who is written as they are this is so if they are a party of the entry, and also if
the entry only looks so (`HistoryEntry.Suggests`). On a reachable chain token ids are numbers
(`Ledger.Reached.numbered`), so an ordinary viewer is mistaken only for a party whose name ends
with a quote and the name of the viewer (`Chain.Reachable.shows_history`).
-/

namespace Handover

/-- The search for a run finds exactly what stands somewhere in the text. -/
theorem Text.hasRun_iff_infix (run : List Char) : ∀ cs : List Char,
    Text.hasRun run cs = true ↔ run <:+: cs
  | [] => by simp [hasRun]
  | c :: cs => by
    rw [hasRun, Bool.or_eq_true, List.isPrefixOf_iff_prefix, hasRun_iff_infix run cs,
      List.infix_cons_iff]

/-! ## Texts in quotes -/

namespace Json

/-- The pieces of a text, as it is written, between the quotes that it holds itself. -/
def quoted (s : String) : List String :=
  Text.split '"' (String.ofList (writeChars s.toList []))

theorem map_toList_split (sep : Char) (s : String) :
    (Text.split sep s).map String.toList = Text.splitChars sep s.toList := by
  simp [Text.split, Function.comp_def]

/-- A written text before others is a piece for what stands before it and the pieces of its own. -/
theorem splitChars_append_writeString {front : List Char} (h : '"' ∉ front) (s : String)
    (rest : List Char) : Text.splitChars '"' (front ++ writeString s rest) =
      front :: ((quoted s).map String.toList ++ Text.splitChars '"' rest) := by
  have hwrite : writeString s rest = '"' :: (writeChars s.toList [] ++ '"' :: rest) := by
    rw [writeString, writeChars_append, List.nil_append]
  rw [hwrite, Text.splitChars_append_cons, Text.splitChars_of_not_mem h,
    Text.splitChars_append_cons, quoted, map_toList_split, String.toList_ofList,
    List.singleton_append]

/-- A text that is written as it is. -/
def Plain (s : String) : Prop :=
  ∀ c ∈ s.toList, escaped c = [c]

instance (s : String) : Decidable (Plain s) :=
  List.decidableBAll (fun c => escaped c = [c]) s.toList

/-- A character is written as itself or with a backslash in front. -/
theorem escaped_eq_or (c : Char) : escaped c = [c] ∨ ∃ cs, escaped c = '\\' :: cs := by
  unfold escaped
  split_ifs <;> simp

/-- Only a quote is written with a quote. -/
theorem quote_notMem_escaped {c : Char} (h : c ≠ '"') : '"' ∉ escaped c := by
  have hdigit : ∀ n : Nat, n < 16 → hexDigit n ≠ '"' := by decide
  unfold escaped
  rw [if_neg h]
  split_ifs with h₁ h₂ h₃ h₄ h₅ h₆ hlow
  all_goals try decide
  · have hhigh := hdigit (c.toNat / 16) (by omega)
    have hrest := hdigit (c.toNat % 16) (by omega)
    simp [hhigh.symm, hrest.symm]
  · simpa using h.symm

/-- The first piece of a written text is plain only if it is the text up to its first quote, and
the others are written alike. -/
theorem exists_splitChars_writeChars : ∀ cs : List Char, ∃ piece pieces,
    Text.splitChars '"' (writeChars cs []) = piece :: pieces ∧
      ∀ v : List Char, (∀ c ∈ v, escaped c = [c]) → (piece = v ↔ cs = v) ∧
        (v ∈ pieces ↔ ∃ front, cs = front ++ '"' :: v)
  | [] => ⟨[], [], rfl, fun v _ => by simp⟩
  | c :: cs => by
    obtain ⟨piece, pieces, hcs, hv⟩ := exists_splitChars_writeChars cs
    have hslash : ∀ {v : List Char}, (∀ c ∈ v, escaped c = [c]) → '\\' ∉ v := fun h hmem => by
      simpa [escaped] using h _ hmem
    by_cases hc : c = '"'
    · subst hc
      refine ⟨['\\'], piece :: pieces, ?_, fun v h => ⟨?_, ?_⟩⟩
      · rw [writeChars, show escaped '"' = ['\\', '"'] from rfl, List.cons_append,
          List.singleton_append, Text.splitChars_cons_of_ne (by decide)
            (Text.splitChars_cons_sep '"' _), hcs]
      · refine iff_of_false ?_ ?_
        · rintro rfl
          exact hslash h (by simp)
        · rintro rfl
          simpa [escaped] using h '"' (by simp)
      · rw [List.mem_cons, eq_comm, (hv v h).1, (hv v h).2]
        constructor
        · rintro (rfl | ⟨front, rfl⟩)
          · exact ⟨[], rfl⟩
          · exact ⟨'"' :: front, rfl⟩
        · rintro ⟨_ | ⟨d, front⟩, hfront⟩
          · exact Or.inl (List.cons.inj hfront).2
          · exact Or.inr ⟨front, (List.cons.inj hfront).2⟩
    · refine ⟨escaped c ++ piece, pieces, ?_, fun v h => ⟨?_, ?_⟩⟩
      · rw [writeChars]
        exact Text.splitChars_append_of_notMem hcs (quote_notMem_escaped hc)
      · rcases escaped_eq_or c with he | ⟨rest, he⟩
        · cases v with
          | nil => simp [he]
          | cons d v =>
            rw [he, List.singleton_append, List.cons.injEq, List.cons.injEq,
              (hv v fun e hmem => h e (List.mem_cons_of_mem d hmem)).1]
        · refine iff_of_false ?_ ?_
          · rintro rfl
            exact hslash h (by simp [he])
          · rintro rfl
            have hslashed := he.symm.trans (h c List.mem_cons_self)
            exact hslash h (List.mem_cons.2 (Or.inl (List.cons.inj hslashed).1))
      · rw [(hv v h).2]
        constructor
        · rintro ⟨front, rfl⟩
          exact ⟨c :: front, rfl⟩
        · rintro ⟨_ | ⟨d, front⟩, hfront⟩
          · exact absurd (List.cons.inj hfront).1 hc
          · exact ⟨front, (List.cons.inj hfront).2⟩

/-- A plain text is a piece of a written one if it is that text, or what stands in it after a
quote, up to its end. -/
theorem mem_quoted {v : String} (h : Plain v) (s : String) :
    v ∈ quoted s ↔ s = v ∨ ∃ front, s = front ++ "\"" ++ v := by
  obtain ⟨piece, pieces, hs, hv⟩ := exists_splitChars_writeChars s.toList
  obtain ⟨hfirst, hrest⟩ := hv v.toList h
  have hmem : v ∈ quoted s ↔ v.toList ∈ piece :: pieces := by
    rw [quoted, Text.split, String.toList_ofList, hs, List.mem_map]
    refine ⟨?_, fun hin => ⟨_, hin, String.ofList_toList⟩⟩
    rintro ⟨cs, hin, rfl⟩
    rwa [String.toList_ofList]
  rw [hmem, List.mem_cons, eq_comm, hfirst, hrest, String.toList_inj]
  refine or_congr_right ⟨?_, ?_⟩
  · rintro ⟨front, hfront⟩
    refine ⟨String.ofList front, String.toList_inj.1 ?_⟩
    simp [String.toList_append, hfront]
  · rintro ⟨front, rfl⟩
    exact ⟨front.toList, by simp [String.toList_append]⟩

end Json

/-! ## Words of an entry -/

namespace TokenAction

/-- The name of an action. -/
def name : TokenAction → String
  | mint .. => "mint"
  | transfer .. => "transfer"

/-- What the giver is called. -/
def role : TokenAction → String
  | mint .. => "minter"
  | transfer .. => "from"

/-- Who mints or sends the token. -/
def giver : TokenAction → String
  | mint minter _ => minter
  | transfer sender _ => sender

/-- Who gets the token. -/
def recipient : TokenAction → String
  | mint _ recipient => recipient
  | transfer _ recipient => recipient

/-- Who takes part. -/
def parties (action : TokenAction) : List String :=
  [action.giver, action.recipient]

end TokenAction

namespace HistoryEntry

/-- The height as it is written, up to the next name. -/
def heightMark (e : HistoryEntry) : String :=
  String.ofList (':' :: (Nat.toDigits 10 (UInt64.ofNat e.height).toNat ++ [',']))

/-- The words of the written form, between its first and its last quote. -/
def words (e : HistoryEntry) : List String :=
  ["action", ":\x7b", e.action.name, ":\x7b", e.action.role, ":"] ++ Json.quoted e.action.giver ++
    [",", "recipient", ":"] ++ Json.quoted e.action.recipient ++
    ["\x7d\x7d,", "block_height", e.heightMark, "token_id", ":"] ++ Json.quoted e.tokenId ++
    [",", "tx_id"]

/-- The names of fields and actions. -/
def names : List String :=
  ["action", "mint", "minter", "transfer", "from", "recipient", "block_height", "token_id", "tx_id"]

/-- The words that do not come from its texts. -/
def marks (e : HistoryEntry) : List String :=
  ["action", ":\x7b", e.action.name, ":\x7b", e.action.role, ":"] ++ [",", "recipient", ":"] ++
    ["\x7d\x7d,", "block_height", e.heightMark, "token_id", ":"] ++ [",", "tx_id"]

end HistoryEntry

theorem TokenAction.name_mem (action : TokenAction) : action.name ∈ HistoryEntry.names := by
  cases action <;> simp [name, HistoryEntry.names]

theorem TokenAction.role_mem (action : TokenAction) : action.role ∈ HistoryEntry.names := by
  cases action <;> simp [role, HistoryEntry.names]

namespace HistoryEntry

/-- Every mark is a name, or holds a colon or a comma. -/
theorem mark_cases {e : HistoryEntry} {w : String} (h : w ∈ e.marks) :
    w ∈ names ∨ ':' ∈ w.toList ∨ ',' ∈ w.toList := by
  have hname := e.action.name_mem
  have hrole := e.action.role_mem
  simp only [marks, List.cons_append, List.nil_append, List.mem_cons, List.not_mem_nil,
    or_false] at h
  rcases h with rfl | rfl | rfl | rfl | rfl | rfl | rfl | rfl | rfl | rfl | rfl | rfl | rfl | rfl |
    rfl | rfl
  all_goals first | exact Or.inl ‹_› | simp [names, heightMark]

/-- The words of an entry come from its parties, its marks and the id of its token. -/
theorem mem_words (e : HistoryEntry) (w : String) : w ∈ e.words ↔
    (∃ p ∈ e.action.parties, w ∈ Json.quoted p) ∨ w ∈ e.marks ∨ w ∈ Json.quoted e.tokenId := by
  have hparties : (∃ p ∈ e.action.parties, w ∈ Json.quoted p) ↔
      w ∈ Json.quoted e.action.giver ∨ w ∈ Json.quoted e.action.recipient := by
    simp [TokenAction.parties]
  rw [hparties]
  simp only [words, marks, List.mem_append]
  grind only

/-- A number is written with digits only. -/
theorem notMem_toDigits {c : Char} (h : c.isDigit = false) (n : Nat) : c ∉ Nat.toDigits 10 n :=
  fun hmem => by simp [Nat.isDigit_of_mem_toDigits (by decide) (by decide) hmem] at h

/-- Before its words a written entry has a brace, and after them the number of the transaction. -/
theorem splitChars_write (e : HistoryEntry) : ∃ last,
    Text.splitChars '"' (Json.write e.toJson []) =
      ['\x7b'] :: (e.words.map String.toList ++ [last]) := by
  have hwrite : Json.write e.toJson [] =
      ['\x7b'] ++ Json.writeString "action" ([':', '\x7b'] ++
        Json.writeString e.action.name ([':', '\x7b'] ++ Json.writeString e.action.role ([':'] ++
        Json.writeString e.action.giver ([','] ++ Json.writeString "recipient" ([':'] ++
        Json.writeString e.action.recipient (['\x7d', '\x7d', ','] ++
        Json.writeString "block_height" (e.heightMark.toList ++
        Json.writeString "token_id" ([':'] ++ Json.writeString e.tokenId ([','] ++
        Json.writeString "tx_id" (':' :: (Nat.toDigits 10 (UInt64.ofNat e.txId).toNat ++
          ['\x7d']))))))))))) := by
    cases haction : e.action <;>
      simp [HistoryEntry.toJson, haction, TokenAction.toJson, TokenAction.name, TokenAction.role,
        TokenAction.giver, TokenAction.recipient, Json.ofVariant, Json.ofNat, Json.write,
        Json.writeFields, Json.numberChars, heightMark]
  have hnames : ∀ s ∈ names, Json.quoted s = [s] := by decide
  have hname := hnames _ e.action.name_mem
  have hrole := hnames _ e.action.role_mem
  have hheight : '"' ∉ e.heightMark.toList := by
    simp [heightMark, notMem_toDigits]
  have hlast : '"' ∉ ':' :: (Nat.toDigits 10 (UInt64.ofNat e.txId).toNat ++ ['\x7d']) := by
    simp [notMem_toDigits]
  refine ⟨':' :: (Nat.toDigits 10 (UInt64.ofNat e.txId).toNat ++ ['\x7d']), ?_⟩
  rw [hwrite]
  repeat rw [Json.splitChars_append_writeString (by first | decide | exact hheight)]
  rw [Text.splitChars_of_not_mem hlast]
  simp only [names, List.forall_mem_cons] at hnames
  simp [words, hname, hrole, hnames]

/-- The pieces of the name of the account are among the words of the entry. -/
def Names (account : String) (e : HistoryEntry) : Prop :=
  Text.split '"' account <:+: e.words

instance (account : String) (e : HistoryEntry) : Decidable (e.Names account) :=
  inferInstanceAs (Decidable (_ <:+: _))

/-- There is a word like the account that is not the name of a party : a mark, the token, or the
end of a text, after a quote that it holds. -/
inductive Suggests (account : String) (e : HistoryEntry) : Prop
  | mark (h : account ∈ e.marks)
  | token (h : e.tokenId = account)
  | ending {text front : String} (h : text ∈ e.tokenId :: e.action.parties)
      (ends : text = front ++ "\"" ++ account)

/-- A plain account is named by the entries it is a party of, and by those that suggest it. -/
theorem names_iff {account : String} (h : Json.Plain account) (e : HistoryEntry) :
    e.Names account ↔ account ∈ e.action.parties ∨ e.Suggests account := by
  have hquote : '"' ∉ account.toList := fun hmem => by simpa [Json.escaped] using h _ hmem
  rw [Names, Text.split, Text.splitChars_of_not_mem hquote, List.map_singleton,
    String.ofList_toList, List.singleton_infix_iff, mem_words]
  simp only [Json.mem_quoted h]
  constructor
  · rintro (⟨p, hp, rfl | ⟨front, hfront⟩⟩ | hmark | htoken | ⟨front, hfront⟩)
    · exact Or.inl hp
    · exact Or.inr (.ending (List.mem_cons_of_mem _ hp) hfront)
    · exact Or.inr (.mark hmark)
    · exact Or.inr (.token htoken)
    · exact Or.inr (.ending List.mem_cons_self hfront)
  · rintro (hp | hmark | htoken | ⟨htext, hends⟩)
    · exact Or.inl ⟨account, hp, Or.inl rfl⟩
    · exact Or.inr (Or.inl hmark)
    · exact Or.inr (Or.inr (Or.inl htoken))
    · rcases List.mem_cons.1 htext with rfl | hp
      · exact Or.inr (Or.inr (Or.inr ⟨_, hends⟩))
      · exact Or.inl ⟨_, hp, Or.inr ⟨_, hends⟩⟩

end HistoryEntry

/-- A viewer is shown the entries that name them. -/
theorem Collection.entryNames_iff (viewer : String) (e : HistoryEntry) :
    Collection.entryNames viewer e = true ↔ e.Names viewer := by
  obtain ⟨last, hwrite⟩ := e.splitChars_write
  rw [entryNames, Text.hasRun_iff_infix, Text.infix_iff_pieces_infix hwrite, HistoryEntry.Names,
    ← Json.map_toList_split]
  constructor
  · intro h
    simpa [Function.comp_def] using h.map String.ofList
  · exact fun h => h.map String.toList

/-! ## Ordinary accounts -/

/-- A plain name that is no number, no name of a field, and has no mark of the format in it. -/
structure OrdinaryAccount (account : String) : Prop where
  plain : Json.Plain account
  not_number : ∀ n : Nat, account ≠ toString n
  not_name : account ∉ HistoryEntry.names
  no_colon : ':' ∉ account.toList
  no_comma : ',' ∉ account.toList

namespace OrdinaryAccount

variable {account : String} (h : OrdinaryAccount account)

include h

theorem notMem_marks (e : HistoryEntry) : account ∉ e.marks := by
  intro hmark
  rcases HistoryEntry.mark_cases hmark with hname | hcolon | hcomma
  · exact h.not_name hname
  · exact h.no_colon hcolon
  · exact h.no_comma hcomma

/-- Where the token is a number, an ordinary account is suggested by the end of a party's name
only. -/
theorem suggests_iff {e : HistoryEntry} (number : ∃ n : Nat, e.tokenId = toString n) :
    e.Suggests account ↔ ∃ p ∈ e.action.parties, ∃ front, p = front ++ "\"" ++ account := by
  obtain ⟨n, hn⟩ := number
  constructor
  · rintro (hmark | htoken | ⟨htext, hends⟩)
    · exact absurd hmark (h.notMem_marks e)
    · exact absurd (htoken.symm.trans hn) (h.not_number n)
    · rcases List.mem_cons.1 htext with rfl | hp
      · have hquote : '"' ∈ (toString n).toList := by
          rw [← hn, hends]
          simp [String.toList_append]
        exact absurd hquote (by simpa using HistoryEntry.notMem_toDigits (by decide) n)
      · exact ⟨_, hp, _, hends⟩
  · rintro ⟨p, hp, front, hends⟩
    exact .ending (List.mem_cons_of_mem _ hp) hends

end OrdinaryAccount

/-! ## Token ids are numbers -/

/-- The entry tells of a token that has a number for its id. -/
def HistoryEntry.Numbered (e : HistoryEntry) : Prop :=
  ∃ n : Nat, e.tokenId = toString n

/-- The history of the contract, if it has one, tells of such tokens. -/
def Contract.Numbered (c : Contract) : Prop :=
  ∀ s, c.model = .collection s → ∀ e ∈ s.history, e.Numbered

namespace Contract.Numbered

variable {c : Contract}

theorem of_dealer {d : Dealer} (h : c.model = .dealer d) : c.Numbered := fun s hs => by
  simp [h] at hs

theorem of_collection {s : Collection} (h : c.model = .collection s)
    (hs : ∀ e ∈ s.history, e.Numbered) : c.Numbered := fun t ht => by
  obtain rfl : s = t := by simpa [h] using ht
  exact hs

theorem congr {d : Contract} (hc : c.Numbered) (h : d.model = c.model) : d.Numbered :=
  fun s hs => hc s (h ▸ hs)

/-- A history stays numbered if numbered entries are added. -/
theorem append {s t : Collection} (hc : c.Numbered) (hs : c.model = .collection s)
    {es : List HistoryEntry} (ht : t.history = s.history ++ es) (hes : ∀ e ∈ es, e.Numbered) :
    (c.withCollection t).Numbered := by
  refine of_collection rfl fun e he => ?_
  rw [ht] at he
  rcases List.mem_append.1 he with he | he
  · exact hc s hs e he
  · exact hes e he

/-- Following a collection changes no history. -/
theorem follow (hc : c.Numbered) (old : String) (new : ContractInfo) :
    (Ledger.follow old new c).Numbered := by
  cases hm : c.model with
  | collection s => simpa [Ledger.follow, hm] using hc
  | dealer d =>
    by_cases hd : d.child.address = old
    · exact of_dealer (d := { d with child := new }) (by simp [Ledger.follow, hm, hd])
    · simpa [Ledger.follow, hm, hd] using hc

end Contract.Numbered

namespace Ledger

/-- The histories on the ledger tell of tokens that have numbers for ids. -/
def Numbered (l : Ledger) : Prop :=
  l.Each Contract.Numbered

/-- Imports are recorded with the ids of the tokens. -/
theorem exists_history_foldl_importToken (height time : Nat) (address : String) :
    ∀ (ts : List Token) (s : Collection), ∃ es : List HistoryEntry,
      (ts.foldl (importToken height time address) s).history = s.history ++ es ∧
        es.map HistoryEntry.tokenId = ts.map Token.id
  | [], s => ⟨[], by simp, rfl⟩
  | t :: ts, s => by
    obtain ⟨es, hes, hids⟩ := exists_history_foldl_importToken height time address ts
      (importToken height time address s t)
    refine ⟨⟨s.history.length, height, t.id, .mint address t.owner⟩ :: es, ?_, by simp [hids]⟩
    rw [List.foldl_cons, hes]
    simp [importToken, Collection.recordEntry]

/-- On a reached ledger the ids of tokens are numbers. -/
theorem Reached.exists_id_eq {l : Ledger} (h : l.Reached) {a : String} {c : Contract}
    {s : Collection} (hc : l.contract? a = some c) (hs : c.model = .collection s) {t : Token}
    (ht : t ∈ s.tokens) : ∃ n : Nat, t.id = toString n := by
  have hid : t.id ∈ s.entries.map Entry.id := by
    simpa [Collection.entries] using ⟨t, ht, rfl⟩
  have hcount : s.entries.map Entry.id = (List.range s.entries.length).map toString :=
    h.inOrder a _ (stock?_of_collection hc hs)
  rw [hcount, List.mem_map] at hid
  obtain ⟨n, -, hn⟩ := hid
  exact ⟨n, hn.symm⟩

/-- An import adds entries for the tokens of the source, which have numbers. -/
theorem Import.numbered_destination {l : Ledger} {sender address : String}
    (i : Import l sender address) (h : l.Numbered) (hl : l.Reached) (stop : UInt32) :
    (i.destination stop).Numbered := by
  obtain ⟨es, hes, hids⟩ := exists_history_foldl_importToken l.height l.blockTime
    i.contract.address (i.slice stop) i.collection
  refine (h _ _ i.found).append i.isCollection hes fun e he => ?_
  have hid : e.tokenId ∈ (i.slice stop).map Token.id := hids ▸ List.mem_map_of_mem he
  obtain ⟨t, ht, hte⟩ := List.mem_map.1 hid
  rw [HistoryEntry.Numbered, ← hte]
  exact hl.exists_id_eq i.sourceFound i.sourceIsCollection
    (List.mem_of_mem_take (List.mem_of_mem_drop ht))

/-- Histories stay numbered. -/
theorem Numbered.step {rules : ChainRules} {l l' : Ledger} {m : Msg} (h : l.Numbered)
    (hl : l.Reached) (hs : Step rules l m l') : l'.Numbered := by
  have hnext : l.afterAddress.Numbered := h
  have hnone : ∀ e ∈ ([] : List HistoryEntry), e.Numbered := nofun
  cases hs with
  | storeCode _ _ _ _ => exact h
  | send _ => exact h
  | newCollection init _ _ _ => exact hnext.put (.of_collection rfl hnone)
  | newDealer init _ _ _ _ =>
    have hchild : l.afterAddress.afterAddress.Numbered := h
    exact (hchild.put (.of_collection rfl hnone)).put (.of_dealer rfl)
  | moveDealer _ _ d =>
    have hchild := (hnext _ _ d.childFound) _ d.isCollection
    refine ((hnext.put ?_).put ?_).put ?_
    · exact .of_collection rfl hchild
    · exact .of_dealer d.isDealer
    · exact .of_dealer rfl
  | moveCollection _ _ d =>
    refine (hnext.put ?_).put ?_
    · exact (hnext _ _ d.found).congr rfl
    · exact .of_collection rfl hnone
  | sell sale _ _ =>
    refine h.put ((h _ _ sale.childFound).append sale.isCollection rfl fun e he => ?_)
    rw [List.mem_singleton.1 he]
    exact ⟨sale.collection.tokens.length, rfl⟩
  | @transfer sender address codeHash recipient tokenId msg funds memo t _ _ =>
    refine h.put ((h _ _ t.found).append t.isCollection rfl fun e he => ?_)
    have hid : t.token.id = tokenId := by simpa using List.find?_some t.tokenFound
    obtain ⟨n, hn⟩ := hl.exists_id_eq t.found t.isCollection
      (List.mem_of_find?_eq_some t.tokenFound)
    rw [List.mem_singleton.1 he]
    exact ⟨n, hid.symm.trans hn⟩
  | importPage i _ _ _ => exact h.put (i.numbered_destination h hl _)
  | finishImport i _ _ _ source hs =>
    have hopened : (i.opened i.total).Numbered := h.put (i.numbered_destination h hl _)
    have hretired : Contract.Numbered { source with mode := .migratedOut } :=
      (hopened _ _ hs).congr rfl
    exact (hopened.put hretired).foldl_repoint (fun _ hc => hc.follow _ _) _

/-- On a reached ledger histories tell of tokens that have numbers for ids. -/
theorem Reached.numbered {l : Ledger} (h : l.Reached) : l.Numbered := by
  induction h with
  | empty => exact each_empty
  | block _ ih => exact ih
  | step hl hs ih => exact ih.step hl hs

end Ledger

/-! ## What is shown -/

namespace Collection

/-- The answer that lists entries of the history. -/
def historyAnswer (entries : List HistoryEntry) : Json :=
  .obj [("transaction_history", .obj [("total", .ofNat entries.length),
    ("txs", .arr (entries.map HistoryEntry.toJson))])]

/-- The entries that the account is a party of. -/
def historyOf (s : Collection) (account : String) : List HistoryEntry :=
  s.history.filter fun e => account ∈ e.action.parties

/-- The viewer is shown the entries that name the viewer, on whatever page. -/
theorem answerViewer_transactionHistory (s : Collection) (viewer : String)
    (page pageSize : Option UInt32) :
    s.answerViewer viewer (.transactionHistory page pageSize) =
      .ok (historyAnswer (s.history.filter fun e => e.Names viewer)) := by
  have hfilter : s.history.filter (entryNames viewer) =
      s.history.filter fun e => e.Names viewer :=
    List.filter_congr fun e _ => by
      rw [Bool.eq_iff_iff, entryNames_iff, decide_eq_true_iff]
  rw [answerViewer, hfilter, historyAnswer, List.length_map]

/-- The answer for a plain viewer is right exactly if what suggests them also has them as a
party. -/
theorem historyAnswer_names_iff {viewer : String} (h : Json.Plain viewer) (s : Collection) :
    historyAnswer (s.history.filter fun e => e.Names viewer) = historyAnswer (s.historyOf viewer) ↔
      ∀ e ∈ s.history, e.Suggests viewer → viewer ∈ e.action.parties := by
  constructor
  · intro hsame e he hsuggests
    have hsub : (s.historyOf viewer).Sublist (s.history.filter fun e => e.Names viewer) :=
      List.monotone_filter_right _ fun e he =>
        decide_eq_true ((HistoryEntry.names_iff h e).2 (Or.inl (of_decide_eq_true he)))
    have hlength : (s.historyOf viewer).length =
        (s.history.filter fun e => e.Names viewer).length := by
      simp only [historyAnswer, Json.obj.injEq, List.cons.injEq, Prod.mk.injEq, Json.arr.injEq,
        and_true, true_and] at hsame
      simpa using (congrArg List.length hsame.2).symm
    have hmem : e ∈ s.historyOf viewer := by
      rw [hsub.eq_of_length hlength, List.mem_filter]
      exact ⟨he, decide_eq_true ((HistoryEntry.names_iff h e).2 (Or.inr hsuggests))⟩
    exact of_decide_eq_true (List.mem_filter.1 hmem).2
  · intro hparties
    congr 1
    refine List.filter_congr fun e he => decide_eq_decide.2 ?_
    rw [HistoryEntry.names_iff h]
    exact or_iff_left_of_imp (hparties e he)

end Collection

namespace Chain

/-- On a reachable chain, a collection that does not import answers a viewer, whose permit it
accepts, with those entries of its history, in their order, that name the viewer. For a plain
viewer these are the entries that they are a party of if no other entry suggests them, and for
an ordinary viewer nothing but the end of a party's name does. -/
theorem Reachable.shows_history {c : Chain} (h : c.Reachable) {a hash viewer : String}
    {k : Contract} {s : Collection} (found : c.ledger.contract? a = some k)
    (isCollection : k.model = .collection s) (sameCode : hash = "" ∨ hash = k.codeHash)
    (answers : k.mode ≠ .migrateDataIn) {page pageSize : Option UInt32} {v : Json}
    (asked : (Question.ofViewer viewer (.transactionHistory page pageSize)).AskedBy c.rules a v) :
    c.ledger.query c.rules a hash v =
      .ok (Collection.historyAnswer (s.history.filter fun e => e.Names viewer)) ∧
    (Json.Plain viewer →
      (c.ledger.query c.rules a hash v = .ok (Collection.historyAnswer (s.historyOf viewer)) ↔
        ∀ e ∈ s.history, e.Suggests viewer → viewer ∈ e.action.parties)) ∧
    (OrdinaryAccount viewer →
      (c.ledger.query c.rules a hash v = .ok (Collection.historyAnswer (s.historyOf viewer)) ↔
        ∀ e ∈ s.history, (∃ p ∈ e.action.parties, ∃ front, p = front ++ "\"" ++ viewer) →
          viewer ∈ e.action.parties)) := by
  have hquery : c.ledger.query c.rules a hash v =
      .ok (Collection.historyAnswer (s.history.filter fun e => e.Names viewer)) := by
    have hanswers : k.mode = .running ∨ k.mode = .migrateOutStarted ∨
        (k.mode = .migratedOut ∧
          (Question.ofViewer viewer (.transactionHistory page pageSize)).asksHistory) := by
      cases hm : k.mode with
      | running => exact Or.inl rfl
      | migrateDataIn => exact absurd hm answers
      | migrateOutStarted => exact Or.inr (Or.inl rfl)
      | migratedOut => exact Or.inr (Or.inr ⟨rfl, rfl⟩)
    rw [Ledger.query_eq_reply found isCollection sameCode hanswers asked, Collection.reply,
      Collection.answerViewer_transactionHistory]
  have hplain : Json.Plain viewer →
      (c.ledger.query c.rules a hash v = .ok (Collection.historyAnswer (s.historyOf viewer)) ↔
        ∀ e ∈ s.history, e.Suggests viewer → viewer ∈ e.action.parties) := fun hv => by
    rw [hquery, Except.ok.injEq, Collection.historyAnswer_names_iff hv]
  refine ⟨hquery, hplain, fun hv => (hplain hv.plain).trans ?_⟩
  refine forall₂_congr fun e he => ?_
  rw [hv.suggests_iff (h.reached.numbered a k found s isCollection e he)]

/-- The chain with three sales, on which the key of the admin has another account. -/
def withAccount (account : String) : Chain :=
  withSales.after (.register { adminKey with address := account })

theorem reachable_withAccount (account : String) : (withAccount account).Reachable :=
  reachable_withSales.move _

theorem ledger_withAccount (account : String) : (withAccount account).ledger = saleLedger := by
  rw [← ledger_withSales, withAccount, after, register]

theorem askedBy_withAccount (account : String) :
    (Question.ofViewer account (.transactionHistory none none)).AskedBy
      (withAccount account).rules "secret1contract0002" (toJson askHistory) := by
  have hrules : (withAccount account).rules = ⟨"secretdev-1", [(adminKey.publicKey, account),
      (adminKey.publicKey, "secret1admin")], 2, false, false⟩ := by
    rw [withAccount, after, register, rules_withSales]
    rfl
  refine ⟨_, ofObject?_toJson askHistory, ?_⟩
  rw [hrules]
  exact LocalKey.permitCreator_sign List.lookup_cons_self (verify_adminKey _ (by simp))

/-- The buyer of the three tokens is shown the three sales. An account that is called like the
first token is shown the first one, without being a party of it. -/
theorem withSales_shows_history :
    (withAccount "secret1buyer").ledger.query (withAccount "secret1buyer").rules
      "secret1contract0002" "" (toJson askHistory) =
        .ok (Collection.historyAnswer saleCollection.history) ∧
    (withAccount "0").ledger.query (withAccount "0").rules "secret1contract0002" ""
      (toJson askHistory) =
        .ok (Collection.historyAnswer [⟨0, 3, "0", .mint "secret1contract0001" "secret1buyer"⟩]) ∧
    saleCollection.historyOf "0" = [] := by
  have hfound : ∀ account, (withAccount account).ledger.contract? "secret1contract0002" =
      some saleContract := fun account => by
    rw [ledger_withAccount]
    rfl
  have hordinary : OrdinaryAccount "secret1buyer" := by
    refine ⟨by decide, fun n hn => ?_, by decide, by decide, by decide⟩
    have hmem : 's' ∈ (toString n).toList := by
      rw [← hn]
      decide
    exact absurd hmem (by simpa using HistoryEntry.notMem_toDigits (by decide) n)
  refine ⟨?_, ?_, ?_⟩
  · obtain ⟨-, -, hright⟩ := (reachable_withAccount "secret1buyer").shows_history
      (hfound "secret1buyer") (s := saleCollection) rfl (Or.inl rfl) (by decide)
      (askedBy_withAccount "secret1buyer")
    have hparty : ∀ e ∈ saleCollection.history, "secret1buyer" ∈ e.action.parties := by decide
    have hall : saleCollection.historyOf "secret1buyer" = saleCollection.history := by
      decide +kernel
    rw [(hright hordinary).2 fun e he _ => hparty e he, hall]
  · obtain ⟨hquery, -, -⟩ := (reachable_withAccount "0").shows_history (hfound "0")
      (s := saleCollection) rfl (Or.inl rfl) (by decide) (askedBy_withAccount "0")
    rw [hquery]
    decide +kernel
  · decide +kernel

end Chain

end Handover
