import Handover.Contract.CollectionMsg
import Handover.Contract.DealerMsg
import Handover.Contract.Instantiation
import Handover.Contract.MigrationQuery
import Handover.Proofs.Json.Lawful
import Handover.Proofs.Text.Base64

/-!
# The messages of a migration on the wire

Permits, the message that starts a migration, and what a collection is told, asked and answers
are lawful wire types. What a collection answers to an import also comes back from the bytes of
its text (`readBytes_importAnswer`), and no question to a collection is taken for one about its
moves (`migrationQuery_eq_none`).
-/

namespace Handover

/-! ## Permits -/

instance : LawfulWire Permission := ⟨fun p => by cases p <;> decide⟩

instance : LawfulWire PermitParams := ⟨fun p => by
  change PermitParams.ofJson? p.toJson = some p
  simp [PermitParams.toJson, PermitParams.ofJson?, Json.record?, Record.required, List.lookup_cons]⟩

instance : LawfulWire PubKey := ⟨fun k => by
  change PubKey.ofJson? k.toJson = some k
  simp [PubKey.toJson, PubKey.ofJson?, Json.record?, Record.required, List.lookup_cons]⟩

instance : LawfulWire PermitSignature := ⟨fun s => by
  change PermitSignature.ofJson? s.toJson = some s
  simp [PermitSignature.toJson, PermitSignature.ofJson?, Json.record?, Record.required,
    List.lookup_cons]⟩

instance : LawfulWire Permit := ⟨fun p => by
  change Permit.ofJson? p.toJson = some p
  simp [Permit.toJson, Permit.ofJson?, Json.record?, Record.required, List.lookup_cons]⟩

/-! ## Instantiation -/

instance : LawfulWire MigrateFrom := ⟨fun m => by
  change MigrateFrom.ofJson? m.toJson = some m
  simp [MigrateFrom.toJson, MigrateFrom.ofJson?, Json.record?, Record.required, List.lookup_cons]⟩

instance : LawfulWire Migration := ⟨fun m => by
  change Migration.ofJson? m.toJson = some m
  simp [Migration.toJson, Migration.ofJson?, Json.record?, Record.required, List.lookup_cons]⟩

/-- The message of a migration is read back, whatever a fresh contract would start with. -/
theorem ofJson?_toJson_migrate {α : Type} [Wire α] (m : Migration) :
    ofJson? (toJson (.migrate m : InstantiateMsg α)) = some (.migrate m : InstantiateMsg α) := by
  change InstantiateMsg.ofJson? (InstantiateMsg.migrate m).toJson = some _
  simp [InstantiateMsg.toJson, InstantiateMsg.ofJson?]

/-! ## The collection -/

instance : LawfulWire CollectionMsg := ⟨fun m => by
  change CollectionMsg.ofJson? m.toJson = some m
  cases m with
  | transferNft recipient tokenId memo =>
    cases memo <;> simp [CollectionMsg.toJson, CollectionMsg.ofJson?, Json.fieldIfSome,
      Json.record?, Record.required, Record.maybe, List.lookup_cons]
  | migrateTokensIn pages pageSize =>
    cases pages <;> cases pageSize <;> simp [CollectionMsg.toJson, CollectionMsg.ofJson?,
      Json.record?, Record.optional, List.lookup_cons, Json.ofOption, Json.ofUInt32]⟩

instance : LawfulMessage CollectionMsg := ⟨fun m => by cases m <;> rfl⟩

instance : LawfulWire ImportAnswer := ⟨fun a => by
  change ImportAnswer.ofJson? a.toJson = some a
  let r : Record := ⟨[("complete", .bool a.complete),
    ("next_mint_index", .ofOption .ofUInt32 a.nextMintIndex),
    ("total", .ofOption .ofUInt32 a.total)], false⟩
  have hrecord : a.toJson.record? ["complete", "next_mint_index", "total"] = some r := rfl
  have hcomplete : r.required "complete" Json.bool? = some a.complete := rfl
  have hnext : r.optional "next_mint_index" Json.uint32? = some a.nextMintIndex :=
    Json.optional_ofUInt32 rfl
  have htotal : r.optional "total" Json.uint32? = some a.total := Json.optional_ofUInt32 rfl
  simp only [ImportAnswer.ofJson?, hrecord, hcomplete, hnext, htotal, bind, Option.bind_some, pure]⟩

instance : LawfulWire CollectionAnswer := ⟨fun a => by
  change CollectionAnswer.ofJson? a.toJson = some a
  obtain ⟨progress⟩ := a
  simp [CollectionAnswer.toJson, CollectionAnswer.ofJson?]⟩

/-- The answer to an import comes back from the bytes of its text. -/
theorem readBytes_importAnswer (a : ImportAnswer) :
    (Json.readBytes (Utf8.encode (toJson (CollectionAnswer.migrateTokensIn a)).compact)).bind
      ofJson? = some (CollectionAnswer.migrateTokensIn a) := by
  have hexact : Json.exactWithin Json.depthLimit
      (toJson (CollectionAnswer.migrateTokensIn a)) = true := by
    obtain ⟨complete, nextMintIndex, total⟩ := a
    cases nextMintIndex <;> cases total <;> rfl
  rw [Json.readBytes_compact hexact, Option.bind_some, ofJson?_toJson]

instance : LawfulWire PermitQuery := ⟨fun q => by
  change PermitQuery.ofJson? q.toJson = some q
  cases q with
  | numTokensOfOwner owner =>
    simp [PermitQuery.toJson, PermitQuery.ofJson?, Json.record?, Record.required]
  | batchNftDossier tokenIds =>
    simp [PermitQuery.toJson, PermitQuery.ofJson?, Json.record?, Record.required]
  | transactionHistory page pageSize =>
    cases page <;> cases pageSize <;> simp [PermitQuery.toJson, PermitQuery.ofJson?,
      Json.fieldIfSome, Json.record?, Record.maybe, List.lookup_cons, Json.ofUInt32]⟩

instance : LawfulMessage PermitQuery := ⟨fun q => by cases q <;> rfl⟩

instance : LawfulWire CollectionQuery := ⟨fun q => by
  change CollectionQuery.ofJson? q.toJson = some q
  cases q <;> simp [CollectionQuery.toJson, CollectionQuery.ofJson?, Json.record?,
    Record.required, List.lookup_cons, Json.unit?]⟩

instance : LawfulMessage CollectionQuery := ⟨fun q => by
  cases q with
  | withPermit permit query => exact LawfulMessage.inObjects_toJson query
  | _ => rfl⟩

/-- What reads as a question about moves has the name of one. -/
theorem migrationQuery_eq_none_of_name {v payload : Json} {name : String}
    (hv : v.variant? = some (name, payload)) (hfrom : name ≠ "migrated_from")
    (hto : name ≠ "migrated_to") : (ofObject? v : Option MigrationQuery) = none := by
  refine ofObject?_eq_none ?_
  change MigrationQuery.ofJson? v = none
  simp [MigrationQuery.ofJson?, hv, hfrom, hto]

/-- What reads as a question to a collection is not taken for one about its moves. -/
theorem migrationQuery_eq_none {v : Json} {q : CollectionQuery} (h : ofObject? v = some q) :
    (ofObject? v : Option MigrationQuery) = none := by
  have h : CollectionQuery.ofJson? v = some q := ofJson?_of_ofObject? h
  cases hv : v.variant? with
  | none => simp [CollectionQuery.ofJson?, hv] at h
  | some r =>
    obtain ⟨name, payload⟩ := r
    refine migrationQuery_eq_none_of_name hv ?_ ?_
    · rintro rfl
      simp [CollectionQuery.ofJson?, hv] at h
    · rintro rfl
      simp [CollectionQuery.ofJson?, hv] at h

/-- What reads as a question to a dealer is not taken for one about its moves. -/
theorem migrationQuery_eq_none_of_dealer {v : Json} {q : DealerQuery} (h : ofObject? v = some q) :
    (ofObject? v : Option MigrationQuery) = none := by
  have h : DealerQuery.ofJson? v = some q := ofJson?_of_ofObject? h
  cases hv : v.variant? with
  | none => simp [DealerQuery.ofJson?, hv] at h
  | some r =>
    obtain ⟨name, payload⟩ := r
    refine migrationQuery_eq_none_of_name hv ?_ ?_
    · rintro rfl
      simp [DealerQuery.ofJson?, hv] at h
    · rintro rfl
      simp [DealerQuery.ofJson?, hv] at h

instance : LawfulWire NumTokensAnswer := ⟨fun a => by
  change NumTokensAnswer.ofJson? a.toJson = some a
  simp [NumTokensAnswer.toJson, NumTokensAnswer.ofJson?, Json.inField?, Json.record?,
    Record.required]⟩

instance : LawfulWire MintersAnswer := ⟨fun a => by
  change MintersAnswer.ofJson? a.toJson = some a
  simp [MintersAnswer.toJson, MintersAnswer.ofJson?, Json.inField?, Json.record?,
    Record.required]⟩

end Handover
