import Handover.Proofs.Wire.Payload

/-!
# One form on the wire

Whatever spelling a value of the wire was read from, it is written in one form, in which
everything can be read, and that form is read as the value again (`Wire.canonical_forms`). For
types without free values this holds of all values. An instantiation reads back as the payload of
a fresh contract does (`InstantiateMsg.readsBack`).
-/

namespace Handover

/-- Whatever was read of a type is written with nothing unreadable in it, and read back. -/
def Canonical (α : Type) [Wire α] : Prop :=
  ∀ (v : Json) (a : α), ofJson? v = some a →
    (toJson a).readable = true ∧ ofJson? (toJson a) = some a

/-- A lawful and readable written form is canonical. -/
theorem canonical_of_lawful (α : Type) [Wire α] [LawfulWire α] [ReadableWire α] : Canonical α :=
  fun _ a _ => ⟨readable_toJson a, ofJson?_toJson a⟩

/-- Whatever was read of a type is written with nothing unreadable in it. If an object in a free
value that is carried along begins with the reserved name, that is not read. Otherwise it is read
as `back` of what was written, and this is read back as itself from then on. -/
structure ReadsBack (α : Type) [Wire α] (frees : α → List Json) (back : α → α) : Prop where
  readable : ∀ (v : Json) (a : α), ofJson? v = some a → (toJson a).readable = true
  readBack : ∀ (v : Json) (a : α), ofJson? v = some a →
    ofJson? (toJson a) = Json.unlessReserved (frees a) (back a)
  stable : ∀ a : α, back (back a) = back a

/-- A free value is read back as it is. -/
theorem Json.readsBack : ReadsBack Json (fun v => [v]) id where
  readable _ _ h := (Json.isFree_of_free? h).closed.readable
  readBack _ _ h := (Json.isFree_of_free? h).free?_eq_unlessReserved
  stable _ := rfl

theorem Json.orMissing_orMissing (o : Option Json) : orMissing (orMissing o) = orMissing o := by
  simp [orMissing]

theorem Metadata.withoutNulls_withoutNulls (m : Metadata) :
    m.withoutNulls.withoutNulls = m.withoutNulls := by
  simp [withoutNulls, Json.orMissing_orMissing]

/-- The start of a dealer is read back with missing values for `null`. -/
theorem DealerInit.readsBack : ReadsBack DealerInit DealerInit.frees DealerInit.withoutNulls where
  readable _ _ h := readable_of_isFree (isFree_of_ofJson? h)
  readBack _ _ h := ofJson?_toJson_of_isFree (isFree_of_ofJson? h)
  stable d := by
    simp [withoutNulls, Function.comp_def, Metadata.withoutNulls_withoutNulls,
      Json.orMissing_orMissing]

/-- A message is read back with the free values in it. -/
theorem Msg.readsBack : ReadsBack Msg Msg.frees id where
  readable _ _ h := readable_of_isFree (isFree_of_ofJson? h)
  readBack _ _ h := ofJson?_toJson_of_isFree (isFree_of_ofJson? h)
  stable _ := rfl

namespace InstantiateMsg

variable {α : Type}

/-- The free values of an instantiation are those of its fresh payload. -/
def frees (payload : α → List Json) : InstantiateMsg α → List Json
  | migrate _ => []
  | fresh init => payload init

/-- Changes a fresh payload. -/
def mapFresh (f : α → α) : InstantiateMsg α → InstantiateMsg α
  | migrate m => migrate m
  | fresh init => fresh (f init)

theorem mapFresh_id : mapFresh (id : α → α) = id := by
  funext m
  cases m <;> rfl

variable [Wire α]

theorem exists_of_fresh {v : Json} {init : α} (h : ofJson? v = some (fresh init)) :
    ∃ w, Wire.ofJson? w = some init := by
  obtain ⟨⟨name, w⟩, -, h⟩ := Option.bind_eq_some_iff.1 h
  simp only [Option.bind_eq_bind, Option.pure_def] at h
  split_ifs at h
  · obtain ⟨m, -, hm⟩ := Option.bind_eq_some_iff.1 h
    cases hm
  · obtain ⟨init', hinit, heq⟩ := Option.bind_eq_some_iff.1 h
    cases heq
    exact ⟨w, hinit⟩

/-- An instantiation reads back as its payload does. -/
theorem readsBack {payload : α → List Json} {back : α → α} (h : ReadsBack α payload back) :
    ReadsBack (InstantiateMsg α) (frees payload) (mapFresh back) where
  readable v a ha := by
    cases a with
    | migrate m => exact (Json.readable_ofVariant _ _).trans (readable_toJson m)
    | fresh init =>
      obtain ⟨w, hw⟩ := exists_of_fresh ha
      exact (Json.readable_ofVariant _ _).trans (h.readable w init hw)
  readBack v a ha := by
    cases a with
    | migrate m => exact ofJson?_toJson_migrate m
    | fresh init =>
      obtain ⟨w, hw⟩ := exists_of_fresh ha
      change ofJson? (fresh init).toJson = _
      simp [toJson, ofJson?, h.readBack w init hw, Json.unlessReserved_bind_some, frees, mapFresh]
  stable a := by
    cases a with
    | migrate m => rfl
    | fresh init => exact congrArg fresh (h.stable init)

end InstantiateMsg

namespace Wire

/-- Whatever spelling a value was read from, its written form is read as the value again. Where
free values are carried along, an object in them that begins with the reserved name is in the way,
and where they may be missing, `null` comes back as a missing one. -/
theorem canonical_forms :
    (Canonical Coin ∧ Canonical TxOptions ∧ Canonical TxResponse ∧ Canonical Permit ∧
      Canonical ContractInfo ∧ Canonical CodeArtifact ∧ Canonical NodeInfo) ∧
    (Canonical DealerMsg ∧ Canonical DealerQuery ∧ Canonical PricesAnswer ∧
      Canonical ChildAnswer) ∧
    (Canonical CollectionMsg ∧ Canonical CollectionAnswer ∧ Canonical CollectionQuery ∧
      Canonical PermitQuery ∧ Canonical NumTokensAnswer ∧ Canonical MintersAnswer) ∧
    (Canonical MigrationQuery ∧ Canonical MigrationInfoAnswer) ∧
    ReadsBack Msg Msg.frees id ∧
    ReadsBack (InstantiateMsg Json) (InstantiateMsg.frees fun init => [init]) id ∧
    ReadsBack (InstantiateMsg DealerInit) (InstantiateMsg.frees DealerInit.frees)
      (InstantiateMsg.mapFresh DealerInit.withoutNulls) := by
  refine ⟨?_, ?_, ?_, ?_, Msg.readsBack, ?_, InstantiateMsg.readsBack DealerInit.readsBack⟩
  · simp only [canonical_of_lawful, and_self]
  · simp only [canonical_of_lawful, and_self]
  · simp only [canonical_of_lawful, and_self]
  · simp only [canonical_of_lawful, and_self]
  · rw [← InstantiateMsg.mapFresh_id]
    exact InstantiateMsg.readsBack Json.readsBack

/-- A coin in a loose spelling : an array, with a sign and zeros before the amount. -/
theorem loose_coin_canonical :
    ofJson? (.arr [.str "+007", .str "uscrt"]) = some (⟨7, "uscrt"⟩ : Coin) ∧
      ofJson? (toJson (⟨7, "uscrt"⟩ : Coin)) = some (⟨7, "uscrt"⟩ : Coin) := by
  have hread : ofJson? (.arr [.str "+007", .str "uscrt"]) = some (⟨7, "uscrt"⟩ : Coin) := by decide
  exact ⟨hread, (canonical_forms.1.1 _ _ hread).2⟩

/-- The names of an object are in order when it is written. So a payload in which the reserved
name comes first only then, or in the value of a text, is not read back. A free value that is the
`null` of a text is missing when it comes back. -/
theorem reserved_name_not_readBack :
    let loose : Json := .obj [("z", .ofUInt64 1), (Json.textName, .str "2")]
    let ordered : Json := .obj [(Json.textName, .str "2"), ("z", .ofUInt64 1)]
    let text (v : Json) : Json := .obj [(Json.textName, .str v.compact)]
    let dealer (royalty : Json) : Json := .ofVariant "new" (.obj [("entropy", .str ""),
      ("prices", .arr []), ("admin", .null), ("private_metadata", .null),
      ("public_metadata", .null), ("royalty_info", royalty), ("snip721_code_hash", .str ""),
      ("snip721_code_id", .ofUInt64 1), ("snip721_label", .str "")])
    let init (royalty : Option Json) : DealerInit := ⟨"", 1, "", [], none, none, none, "", royalty⟩
    ofJson? (.ofVariant "new" loose) = some (.fresh ordered : InstantiateMsg Json) ∧
      ofJson? (.ofVariant "new" (text loose)) = some (.fresh ordered : InstantiateMsg Json) ∧
      ofJson? (toJson (.fresh ordered : InstantiateMsg Json)) =
        (none : Option (InstantiateMsg Json)) ∧
      ofJson? (dealer (text .null)) =
        some (.fresh (init (some .null)) : InstantiateMsg DealerInit) ∧
      ofJson? (toJson (.fresh (init (some .null)) : InstantiateMsg DealerInit)) =
        some (.fresh (init none) : InstantiateMsg DealerInit) := by
  decide +kernel

end Wire

end Handover
