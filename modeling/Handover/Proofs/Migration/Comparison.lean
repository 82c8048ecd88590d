import Handover.Migration.Verifier
import Handover.Proofs.Ledger.Metadata
import Handover.Proofs.Migration.Migrate

/-!
# What a verifier sees

The standard queries to a running collection are answered from its name, its minters and its
tokens (`yields_capture`). Of a token, what is left without the ignored fields is its entry
(`unminted_dossier`). So the answers of two collections with the same name, minters and entries
are equivalent (`assertEquivalent_of_sameFace`).
-/

namespace Handover

open Procedure

/-! ## Without the ignored fields -/

namespace Json

theorem stripItems_eq_map (name : String) (above trail : List String) (xs : List Json) :
    stripItems name above trail xs = xs.map (stripAt name above trail) := by
  induction xs with
  | nil => rfl
  | cons x xs ih => rw [stripItems, ih, List.map_cons]

/-- A tree at a trail without the fields of a fresh mint. -/
def unminted (trail : List String) (v : Json) : Json :=
  stripAt "time_of_minting" ["mint_run_info"] trail
    (stripAt "token_creator" ["mint_run_info"] trail
      (stripAt "collection_creator" ["mint_run_info"] trail v))

/-- Without the standard fields is without those of a fresh mint. -/
theorem stripAll_standardIgnored (v : Json) : v.stripAll standardIgnored = v.unminted [] := by
  have h1 : pathNames "mint_run_info.collection_creator" =
      ["mint_run_info", "collection_creator"] := by decide
  have h2 : pathNames "mint_run_info.token_creator" = ["mint_run_info", "token_creator"] := by
    decide
  have h3 : pathNames "mint_run_info.time_of_minting" = ["mint_run_info", "time_of_minting"] := by
    decide
  simp [stripAll, standardIgnored, strip, h1, h2, h3, unminted]

theorem unminted_arr (trail : List String) (xs : List Json) :
    unminted trail (.arr xs) = .arr (xs.map (unminted trail)) := by
  simp [unminted, stripAt, stripItems_eq_map, Function.comp_def]

end Json

/-- A token of an entry, minted by nobody. -/
def Entry.token (e : Entry) : Token :=
  ⟨e.id, e.owner, e.publicMetadata, e.privateMetadata, "", "", 0⟩

/-- What a dossier shows without the fields of a fresh mint depends on the entry only. -/
theorem unminted_dossier (trail : List String) (t : Token) :
    t.dossier.unminted trail = t.entry.token.dossier.unminted trail := by
  simp [Json.unminted, Token.dossier, Entry.token, Token.entry, Json.stripAt, Json.stripFields]

/-! ## Answers -/

namespace Collection

/-- The first tokens with some ids. -/
def tokensOf (s : Collection) (ids : List String) : List Token :=
  ids.filterMap fun id => s.tokens.find? fun t => t.id == id

/-- The answer to a standard query, with dossiers for some ids. -/
def answerTo (s : Collection) (ids : List String) : VerifyQuery → Json
  | .contractInfo =>
    .obj [("contract_info", .obj [("name", .str s.name), ("symbol", .str s.symbol)])]
  | .contractConfig => configAnswer
  | .numTokens => .ofUInt32 (.ofNat s.tokens.length)
  | .minters => .ofStrings s.minters
  | .batchNftDossier => .obj [("batch_nft_dossier", .obj [("nft_dossiers",
    .arr ((s.tokensOf ids).map Token.dossier))])]
  | .transactionHistory => .null

/-- The collection has tokens with these ids. -/
def HasTokens (s : Collection) (ids : List String) : Prop :=
  ∀ id ∈ ids, ∃ e ∈ s.entries, e.id = id

/-- The collections show the same : name, minters, and entries of tokens. -/
structure SameFace (s t : Collection) : Prop where
  name : t.name = s.name
  symbol : t.symbol = s.symbol
  minters : t.minters = s.minters
  entries : t.entries = s.entries

/-- A collection with tokens for the ids shows a dossier for each. -/
theorem mapM_dossier {s : Collection} {ids : List String} (h : s.HasTokens ids) :
    ids.mapM s.dossier = .ok ((s.tokensOf ids).map Token.dossier) := by
  induction ids with
  | nil => rfl
  | cons id ids ih =>
    obtain ⟨e, he, hid⟩ := h id (by simp)
    obtain ⟨t, ht, rfl⟩ := List.mem_map.1 he
    have hfind : (s.tokens.find? fun t => t.id == id).isSome := by
      rw [List.find?_isSome]
      exact ⟨t, ht, by simpa [Token.entry] using hid⟩
    obtain ⟨u, hu⟩ := Option.isSome_iff_exists.1 hfind
    have hrest := ih fun id hid => h id (by simp [hid])
    simp [List.mapM_cons, dossier, hu, hrest, tokensOf, bind, Except.bind, pure, Except.pure]

/-- The tokens for some ids are told by the entries. -/
theorem map_entry_tokensOf (s : Collection) (ids : List String) :
    (s.tokensOf ids).map Token.entry =
      ids.filterMap fun id => s.entries.find? fun e => e.id == id := by
  rw [tokensOf, List.map_filterMap]
  congr 1
  funext id
  rw [entries, List.find?_map]
  rfl

/-- A verifier reads the answers as they were given, if that holds of the data of the tokens. -/
theorem literal_answerTo {s : Collection} (h : ∀ e ∈ s.entries, e.Literal) (ids : List String)
    (q : VerifyQuery) : (s.answerTo ids q).Literal := by
  cases q with
  | contractInfo =>
    have hnames : ["name", "symbol"].Pairwise (· < ·) := by decide
    exact Json.literal_obj_singleton rfl (Json.literal_obj rfl hnames (by simp))
  | contractConfig =>
    have hnames : ["burn_is_enabled", "minter_may_update_metadata", "owner_is_public",
        "owner_may_update_metadata", "sealed_metadata_is_enabled", "token_supply_is_public",
        "unwrapped_metadata_is_private"].Pairwise (· < ·) := by decide
    exact Json.literal_obj_singleton rfl (Json.literal_obj rfl hnames (by simp))
  | numTokens => exact ⟨⟨trivial, trivial⟩, rfl⟩
  | minters => exact Json.literal_arr (by simp)
  | batchNftDossier =>
    refine Json.literal_obj_singleton rfl (Json.literal_obj_singleton rfl ?_)
    refine Json.literal_arr fun x hx => ?_
    obtain ⟨t, ht, rfl⟩ := List.mem_map.1 hx
    obtain ⟨id, -, hfind⟩ := List.mem_filterMap.1 ht
    exact (h _ (List.mem_map_of_mem (List.mem_of_find?_eq_some hfind))).dossier
  | transactionHistory => exact Json.literal_null

theorem SameFace.length_tokens {s t : Collection} (h : SameFace s t) :
    t.tokens.length = s.tokens.length := by
  rw [← length_entries, h.entries, length_entries]

/-- Collections that show the same have tokens with the same ids. -/
theorem SameFace.hasTokens {s t : Collection} (h : SameFace s t) {ids : List String}
    (hs : s.HasTokens ids) : t.HasTokens ids := by
  simpa only [HasTokens, h.entries] using hs

/-- Collections that show the same give the same answers, but for the fields of a fresh mint. -/
theorem SameFace.unminted_answerTo {s t : Collection} (h : SameFace s t) (ids : List String)
    (q : VerifyQuery) : (t.answerTo ids q).unminted [] = (s.answerTo ids q).unminted [] := by
  have hlength := h.length_tokens
  have hdossiers : ∀ u : Collection, ((u.tokensOf ids).map Token.dossier).map
      (Json.unminted ["nft_dossiers", "batch_nft_dossier"]) =
      (ids.filterMap fun id => u.entries.find? fun e => e.id == id).map fun e =>
        e.token.dossier.unminted ["nft_dossiers", "batch_nft_dossier"] := by
    intro u
    rw [← map_entry_tokensOf, List.map_map, List.map_map]
    exact List.map_congr_left fun t _ => unminted_dossier _ t
  have hbatch : ∀ xs, Json.unminted [] (.obj [("batch_nft_dossier", .obj [("nft_dossiers",
      .arr xs)])]) = .obj [("batch_nft_dossier", .obj [("nft_dossiers",
        .arr (xs.map (Json.unminted ["nft_dossiers", "batch_nft_dossier"])))])] := by
    intro xs
    rw [← Json.unminted_arr]
    rfl
  cases q with
  | batchNftDossier => simp only [answerTo, hbatch, hdossiers, h.entries]
  | _ => simp only [answerTo, h.name, h.symbol, h.minters, hlength]

end Collection

/-! ## Queries -/

namespace Ledger

/-- What the collection `s` at `a` answers to a query of its mode. -/
def answer (rules : ChainRules) (a : String) (s : Collection) : CollectionQuery → Except Refusal Json
  | .contractInfo =>
    .ok (.obj [("contract_info", .obj [("name", .str s.name), ("symbol", .str s.symbol)])])
  | .contractConfig => .ok Collection.configAnswer
  | .numTokens => .ok (Collection.countAnswer s.tokens.length)
  | .minters => .ok (toJson (MintersAnswer.mk s.minters))
  | .withPermit permit query => do
    let viewer ← rules.permitCreator permit a
    s.answerViewer viewer query

/-- A collection is asked at its address, and answers what its mode lets it answer. -/
theorem query_collection (rules : ChainRules) {l : Ledger} {a hash : String} {k : Contract}
    {s : Collection} (found : l.contract? a = some k) (isCollection : k.model = .collection s)
    (sameCode : hash = "" ∨ hash = k.codeHash) {q : CollectionQuery}
    (answers : answersIn k.mode q = true) {v : Json} (read : ofObject? v = some q) :
    l.query rules a hash v = answer rules a s q := by
  have hl : l.contract a = .ok k := contract_eq_ok.2 found
  have haddress : k.address = a := address_of_contract? found
  have hcode : ¬(hash ≠ "" ∧ k.codeHash ≠ hash) := by
    rintro ⟨hne, hcode⟩
    rcases sameCode with rfl | rfl <;> contradiction
  have hp : parseMessage (α := CollectionQuery) ofObject? "QueryMsg" v = .ok q := parseMessage_eq_ok.2 read
  simp only [query, queryCollection, hl, hp, answers, migrationQuery_eq_none read, isCollection,
    bind, Except.bind, hcode, if_false, Bool.not_true, Bool.false_eq_true, haddress]
  cases q <;> rfl

end Ledger

namespace StateVerifier

variable {c : Chain} {key : LocalKey} {k : Contract} {s : Collection}

/-- A running collection answers each standard query. -/
theorem yields_answer (v : StateVerifier) (found : c.ledger.contract? k.address = some k)
    (isCollection : k.model = .collection s) (running : k.mode = .running)
    (small : s.tokens.length < UInt32.size)
    (permitted : c.rules.permitCreator (key.sign ⟨[k.address], v.permitName, c.rules.chainId,
      [.owner]⟩) k.address = .ok s.admin)
    (literal : ∀ e ∈ s.entries, e.Literal) (hasTokens : s.HasTokens v.tokenIds) {q : VerifyQuery}
    (standard : q ∈ VerifyQuery.standard) : (v.answer key.toSigner k.info q).Yields c (s.answerTo v.tokenIds q) c := by
  have hquery : ∀ q : CollectionQuery, c.ledger.query c.rules k.address k.codeHash (toJson q) =
      Ledger.answer c.rules k.address s q := fun q =>
    Ledger.query_collection c.rules found isCollection (Or.inr rfl) (by rw [running]; rfl)
      (ofObject?_toJson q)
  have hread : ∀ q : VerifyQuery, (s.answerTo v.tokenIds q).free? = some (s.answerTo v.tokenIds q) :=
    fun q => (s.literal_answerTo literal v.tokenIds q).free?_eq
  cases q with
  | contractInfo =>
    exact ContractInfo.yields_ask (hquery .contractInfo) (hread .contractInfo)
  | contractConfig =>
    exact ContractInfo.yields_ask (hquery .contractConfig) (hread .contractConfig)
  | numTokens =>
    have hcount : Collection.countAnswer s.tokens.length =
        toJson (NumTokensAnswer.mk (.ofNat s.tokens.length)) := by
      have hword : (UInt32.ofNat s.tokens.length).toUInt64 = UInt64.ofNat s.tokens.length := by
        rw [← UInt64.toNat_inj, UInt32.toNat_toUInt64, UInt32.toNat_ofNat_of_lt' small,
          UInt64.toNat_ofNat_of_lt' (Nat.lt_trans small (by decide))]
      change _ = NumTokensAnswer.toJson _
      rw [NumTokensAnswer.toJson, Json.ofUInt32, hword]
      rfl
    refine Yields.map _ (Yields.map _ (ContractInfo.yields_ask (hquery .numTokens) ?_))
    rw [hcount, ofJson?_toJson]
    rfl
  | minters =>
    exact Yields.map _ (Yields.map _ (ContractInfo.yields_ask (hquery .minters)
      (ofJson?_toJson (MintersAnswer.mk s.minters))))
  | batchNftDossier =>
    have hanswer := hquery (.withPermit (key.sign ⟨[k.address], v.permitName, c.rules.chainId,
      [.owner]⟩) (.batchNftDossier v.tokenIds))
    simp only [Ledger.answer, permitted, Collection.answerViewer,
      Collection.mapM_dossier hasTokens, bind, Except.bind] at hanswer
    exact Yields.bind (key.yields_ownerPermit _ _ c)
      (ContractInfo.yields_ask hanswer (hread .batchNftDossier))
  | transactionHistory => simp [VerifyQuery.standard] at standard

/-- The snapshot of a collection. -/
def snapshotOf (v : StateVerifier) (k : Contract) (s : Collection) : Snapshot :=
  ⟨k.info, fun q => if q ∈ v.queries then some (s.answerTo v.tokenIds q) else none⟩

/-- A capture puts together the answers to its queries. -/
theorem yields_captureFrom {v : StateVerifier} {viewer : Signer} {answer : VerifyQuery → Json} :
    ∀ (queries : List VerifyQuery) (snapshot : Snapshot),
      (∀ q ∈ queries, (v.answer viewer snapshot.contract q).Yields c (answer q) c) →
      (v.captureFrom viewer snapshot queries).Yields c
        ⟨snapshot.contract, fun q =>
          if q ∈ queries then some (answer q) else snapshot.answers q⟩ c
  | [], snapshot, _ => by
    simp only [List.not_mem_nil, if_false]
    exact yields_pure snapshot c
  | q :: queries, snapshot, h => by
    have hrest := yields_captureFrom queries (snapshot.put q (answer q))
      fun r hr => h r (by simp [hr])
    have hput : (fun r => if r ∈ queries then some (answer r) else
        (snapshot.put q (answer q)).answers r) =
        fun r => if r ∈ q :: queries then some (answer r) else snapshot.answers r := by
      funext r
      by_cases hr : r ∈ queries <;> by_cases hq : r = q <;> simp [Snapshot.put, hr, hq]
    rw [hput] at hrest
    exact (h q (by simp)).bind hrest

/-- A verifier with the standard queries takes the snapshot of a running collection. -/
theorem yields_capture {v : StateVerifier} (standard : v.queries = VerifyQuery.standard)
    (found : c.ledger.contract? k.address = some k)
    (isCollection : k.model = .collection s) (running : k.mode = .running)
    (small : s.tokens.length < UInt32.size)
    (permitted : c.rules.permitCreator (key.sign ⟨[k.address], v.permitName, c.rules.chainId,
      [.owner]⟩) k.address = .ok s.admin)
    (literal : ∀ e ∈ s.entries, e.Literal) (hasTokens : s.HasTokens v.tokenIds) :
    (v.capture key.toSigner k.info).Yields c (v.snapshotOf k s) c :=
  yields_captureFrom _ _ fun _ hq => v.yields_answer found isCollection running small permitted
    literal hasTokens (standard ▸ hq)

/-! ## The comparison -/

/-- Snapshots of collections that show the same are equivalent. -/
theorem assertEquivalent_of_sameFace {v : StateVerifier} (standard : v.ignored = standardIgnored)
    (k k' : Contract) {s t : Collection} (h : s.SameFace t) :
    v.assertEquivalent (v.snapshotOf k s) (v.snapshotOf k' t) = .ok () := by
  have hat : ∀ q, Snapshot.differenceAt v.ignored (v.snapshotOf k s) (v.snapshotOf k' t) q =
      none := by
    intro q
    by_cases hq : q ∈ v.queries
    · simp [Snapshot.differenceAt, snapshotOf, hq, standard, Json.stripAll_standardIgnored,
        h.unminted_answerTo, Json.same]
    · simp [Snapshot.differenceAt, snapshotOf, hq]
  have hnone : Snapshot.difference v.ignored (v.snapshotOf k s) (v.snapshotOf k' t) = none :=
    List.findSome?_eq_none_iff.2 fun q _ => hat q
  rw [assertEquivalent, hnone]

end StateVerifier

end Handover
