import Handover.Proofs.Json.Free
import Handover.Proofs.Wire.Plain

/-!
# Free values that are carried along

A message to a contract is a free value inside a message of a transaction, and what a contract
starts with may hold some. Free values are written as they are, so they come back, unless an
object in them begins with the reserved name : then nothing is read (`Json.unlessReserved`).

Where a free value may be missing, `null` stands for a missing one. So a field that was read as
`null`, as the value of a text, is missing when it comes back (`Json.orMissing`).

What a contract starts with is read from a message, which is a free value itself. So the free
values in it were read twice, and are read as themselves (`DealerInit.literal_of_ofJson?`).
-/

namespace Handover

namespace Json

/-- What is read where free values are carried along : nothing, if an object in them begins with
the reserved name. -/
def unlessReserved {α : Type} (frees : List Json) (a : α) : Option α :=
  if frees.any hasReserved then none else some a

/-- A free value that may be missing, with `null` for a missing one. -/
def orMissing (o : Option Json) : Option Json :=
  o.filter (· ≠ .null)

theorem ofOption_id (o : Option Json) : ofOption id o = o.getD .null := by
  cases o <;> rfl

section UnlessReserved

variable {α β : Type} {frees : List Json}

@[simp] theorem unlessReserved_nil (a : α) : unlessReserved [] a = some a := rfl

@[simp] theorem map_unlessReserved (f : α → β) (a : α) :
    (unlessReserved frees a).map f = unlessReserved frees (f a) := by
  unfold unlessReserved
  split <;> rfl

theorem unlessReserved_bind_some (a : α) (f : α → β) :
    ((unlessReserved frees a).bind fun x => some (f x)) = unlessReserved frees (f a) := by
  rw [← map_unlessReserved, Option.map_eq_bind]
  rfl

/-- Parts are read one after the other, unless a free value in one of them is in the way. -/
theorem unlessReserved_bind (a : α) (k : α → Option β) {frees' : List Json} {b : β}
    (hk : k a = unlessReserved frees' b) :
    (unlessReserved frees a).bind k = unlessReserved (frees ++ frees') b := by
  unfold unlessReserved at hk ⊢
  rw [List.any_append]
  cases frees.any hasReserved with
  | true => rfl
  | false => exact hk

theorem IsFree.free?_eq_unlessReserved {v : Json} (h : v.IsFree) :
    free? v = unlessReserved [v] v := by
  rw [h.free?_eq, unlessReserved, List.any_cons, List.any_nil, Bool.or_false]

end UnlessReserved

end Json

namespace Record

variable {α : Type} {r : Record} {name : String}

/-- What is found under a name is a field. -/
theorem mem_of_lookup {v : Json} : ∀ {fs : List (String × Json)}, fs.lookup name = some v →
    (name, v) ∈ fs
  | (k, w) :: fs, h => by
    rw [List.lookup_cons] at h
    split at h
    · next he =>
      obtain rfl := Option.some.inj h
      rw [beq_iff_eq.1 he]
      exact List.mem_cons_self
    · exact List.mem_cons_of_mem _ (mem_of_lookup h)

/-- A field that may be missing is `null` where it is. -/
theorem maybe_eq (read : Json → Option α) : r.maybe name read =
    if (r.fields.lookup name).getD .null = .null then some none
    else (read ((r.fields.lookup name).getD .null)).map some := by
  unfold maybe
  split
  · next hl => rw [hl, Option.getD_none, if_pos rfl]
  · next hl => rw [hl, Option.getD_some, if_pos rfl]
  · next v hv hl => rw [hl, Option.getD_some, if_neg hv]

/-- A free field that may be missing is read from where it was written or left out. -/
theorem maybe_free {o : Option Json} (h : (r.fields.lookup name).getD .null = o.getD .null)
    (ho : ∀ v ∈ o, v.IsFree) :
    r.maybe name Json.free? = Json.unlessReserved o.toList (Json.orMissing o) := by
  rw [maybe_eq, h]
  cases o with
  | none => rfl
  | some v =>
    by_cases hnull : v = .null
    · subst hnull
      rfl
    · rw [Option.getD_some, if_neg hnull, (ho v rfl).free?_eq_unlessReserved,
        Json.map_unlessReserved]
      simp [Json.orMissing, Option.filter, hnull]

/-- A free field that was read is free. -/
theorem isFree_of_maybe {o : Option Json} (h : r.maybe name Json.free? = some o) :
    ∀ v ∈ o, v.IsFree := by
  rw [maybe_eq] at h
  split_ifs at h
  · cases h
    simp
  · obtain ⟨w, hw, rfl⟩ := Option.map_eq_some_iff.1 h
    intro v hv
    obtain rfl := Option.some.inj hv
    exact Json.isFree_of_free? hw

/-- A value that was read where it may be missing was read from a field. -/
theorem exists_of_optional {read : Json → Option α} {a : α}
    (h : r.optional name read = some (some a)) : ∃ f ∈ r.fields, read f.2 = some a := by
  unfold optional at h
  split at h
  · split_ifs at h
    cases h
  · cases h
  · next v _ hlookup =>
    obtain ⟨b, hb, hab⟩ := Option.map_eq_some_iff.1 h
    obtain rfl := Option.some.inj hab
    exact ⟨(name, v), mem_of_lookup hlookup, hb⟩

/-- The fields of a free record are free, also if it came as an array. -/
theorem isFree_of_record? {names : List String} {v : Json} (h : v.record? names = some r)
    (hv : v.IsFree) : ∀ f ∈ r.fields, f.2.IsFree := by
  cases v with
  | obj fs =>
    obtain ⟨-, hr⟩ := Option.ite_none_right_eq_some.1 h
    obtain rfl := Option.some.inj hr
    exact fun f hf => hv.field f (List.mem_of_mem_filter hf)
  | arr xs =>
    obtain ⟨-, hr⟩ := Option.ite_none_right_eq_some.1 h
    obtain rfl := Option.some.inj hr
    exact fun f hf => hv.item f.2 (List.of_mem_zip hf).2
  | null | bool | num | str | unreadable => cases h

/-- A free field of a free record can be read again. -/
theorem literal_of_maybe {o : Option Json} (hr : ∀ f ∈ r.fields, f.2.IsFree)
    (h : r.maybe name Json.free? = some o) : ∀ v ∈ o, v.Literal := by
  unfold maybe at h
  split at h
  · cases h
    simp
  · cases h
    simp
  · next w _ hlookup =>
    obtain ⟨u, hu, rfl⟩ := Option.map_eq_some_iff.1 h
    intro v hv
    obtain rfl := Option.some.inj hv
    exact (hr (name, w) (mem_of_lookup hlookup)).literal_of_free? hu

end Record

namespace Metadata

/-- The free values in the data of a token. -/
def frees (m : Metadata) : List Json :=
  m.extension.toList

/-- Data of a token with `null` for a missing extension. -/
def withoutNulls (m : Metadata) : Metadata :=
  { m with extension := Json.orMissing m.extension }

/-- What is read into the data of a token is free. -/
theorem isFree_of_ofJson? {v : Json} {m : Metadata} (h : ofJson? v = some m) :
    ∀ w ∈ m.frees, w.IsFree := by
  simp only [ofJson?, Option.bind_eq_bind, Option.bind_eq_some_iff, Option.pure_def,
    Option.some.injEq] at h
  obtain ⟨r, -, uri, -, extension, hextension, rfl⟩ := h
  intro w hw
  exact Record.isFree_of_maybe hextension w (Option.mem_toList.1 hw)

/-- The data of a token is read back, unless its free value is in the way. -/
theorem ofJson?_toJson_of_isFree {m : Metadata} (h : ∀ w ∈ m.frees, w.IsFree) :
    ofJson? m.toJson = Json.unlessReserved m.frees m.withoutNulls := by
  obtain ⟨uri, extension⟩ := m
  let r : Record := ⟨Json.fieldIfSome "extension" id extension ++
    Json.fieldIfSome "token_uri" .str uri, false⟩
  have hrecord : (toJson ⟨uri, extension⟩).record? ["token_uri", "extension"] = some r := by
    cases extension <;> cases uri <;> rfl
  have huri : r.maybe "token_uri" Json.string? = some uri := by
    cases extension <;> cases uri <;> rfl
  have hextension : r.maybe "extension" Json.free? =
      Json.unlessReserved extension.toList (Json.orMissing extension) :=
    Record.maybe_free (by cases extension <;> cases uri <;> rfl)
      fun w hw => h w (Option.mem_toList.2 hw)
  simp only [ofJson?, hrecord, huri, hextension, bind, Option.bind_some, pure]
  exact Json.unlessReserved_bind_some _ _

theorem readable_of_isFree {m : Metadata} (h : ∀ w ∈ m.frees, w.IsFree) :
    m.toJson.readable = true := by
  have hextension : Json.readableFields (Json.fieldIfSome "extension" id m.extension) = true :=
    Json.readableFields_fieldIfSome fun w hw => (h w (Option.mem_toList.2 hw)).closed.readable
  simp [toJson, hextension]

variable {r : Record} {name : String} {o : Option Metadata}

theorem optional_of_isFree (hlookup : r.fields.lookup name = some (.ofOption Wire.toJson o))
    (hfree : ∀ m ∈ o, ∀ w ∈ m.frees, w.IsFree) : r.optional name Wire.ofJson? =
      Json.unlessReserved (o.toList.flatMap frees) (o.map withoutNulls) := by
  rw [Json.optional_eq nofun hlookup]
  cases o with
  | none => rfl
  | some m =>
    have hm : ofJson? m.toJson = Json.unlessReserved m.frees m.withoutNulls :=
      ofJson?_toJson_of_isFree (hfree m rfl)
    change (ofJson? m.toJson).map some = _
    simp [hm]

theorem isFree_of_optional (h : r.optional name Wire.ofJson? = some o) :
    ∀ m ∈ o, ∀ w ∈ m.frees, w.IsFree := by
  rintro m hm
  obtain rfl := Option.mem_def.1 hm
  obtain ⟨f, -, hf⟩ := Record.exists_of_optional h
  exact isFree_of_ofJson? hf

/-- The free values in the data of a token are read as themselves. -/
def Literal (m : Metadata) : Prop :=
  ∀ w ∈ m.frees, w.Literal

/-- Data of a token that was read from a free value can be read again. -/
theorem literal_of_ofJson? {v : Json} {m : Metadata} (h : ofJson? v = some m) (hv : v.IsFree) :
    m.Literal := by
  simp only [ofJson?, Option.bind_eq_bind, Option.bind_eq_some_iff, Option.pure_def,
    Option.some.injEq] at h
  obtain ⟨r, hr, uri, -, extension, hextension, rfl⟩ := h
  intro w hw
  exact Record.literal_of_maybe (Record.isFree_of_record? hr hv) hextension w
    (Option.mem_toList.1 hw)

/-- Data of a token that may be missing can be read again if it is there. -/
theorem literal_of_optional (hr : ∀ f ∈ r.fields, f.2.IsFree)
    (h : r.optional name Wire.ofJson? = some o) : ∀ m ∈ o, m.Literal := by
  intro m hm
  obtain rfl := Option.mem_def.1 hm
  obtain ⟨f, hmem, hf⟩ := Record.exists_of_optional h
  exact literal_of_ofJson? hf (hr f hmem)

/-- The written form of such data is read as itself. -/
theorem Literal.toJson {m : Metadata} (h : m.Literal) : m.toJson.Literal := by
  obtain ⟨uri, extension⟩ := m
  have hextension : ∀ w ∈ extension, w.Literal := fun w hw => h w (Option.mem_toList.2 hw)
  have hnames : ["extension", "token_uri"].Pairwise (· < ·) := by decide
  have hpart : List.Sublist ((Json.fieldIfSome "extension" id extension ++
      Json.fieldIfSome "token_uri" Json.str uri).map Prod.fst) ["extension", "token_uri"] := by
    cases extension <;> cases uri <;> simp [Json.fieldIfSome]
  refine Json.literal_obj ?_ (hnames.sublist hpart) fun f hf => ?_
  · cases extension <;> cases uri <;> rfl
  · rcases List.mem_append.1 hf with hf | hf
    · cases extension with
      | none => cases hf
      | some w =>
        obtain rfl := List.mem_singleton.1 hf
        exact hextension w rfl
    · cases uri with
      | none => cases hf
      | some s =>
        obtain rfl := List.mem_singleton.1 hf
        exact Json.literal_str s

end Metadata

namespace DealerInit

/-- The free values a dealer is instantiated with. -/
def frees (d : DealerInit) : List Json :=
  d.publicMetadata.toList.flatMap Metadata.frees ++
    (d.privateMetadata.toList.flatMap Metadata.frees ++ d.royaltyInfo.toList)

/-- The dealer with `null` for missing free values. -/
def withoutNulls (d : DealerInit) : DealerInit :=
  { d with
    publicMetadata := d.publicMetadata.map Metadata.withoutNulls
    privateMetadata := d.privateMetadata.map Metadata.withoutNulls
    royaltyInfo := Json.orMissing d.royaltyInfo }

theorem forall_mem_frees {d : DealerInit} {P : Json → Prop} : (∀ w ∈ d.frees, P w) ↔
    (∀ m ∈ d.publicMetadata, ∀ w ∈ m.frees, P w) ∧
      (∀ m ∈ d.privateMetadata, ∀ w ∈ m.frees, P w) ∧ ∀ w ∈ d.royaltyInfo, P w := by
  simp only [frees, List.forall_mem_append, List.forall_mem_flatMap, Option.mem_toList,
    Option.mem_def]

/-- What is read into the start of a dealer is free. -/
theorem isFree_of_ofJson? {v : Json} {d : DealerInit} (h : ofJson? v = some d) :
    ∀ w ∈ d.frees, w.IsFree := by
  simp only [ofJson?, Option.bind_eq_bind, Option.bind_eq_some_iff, Option.pure_def,
    Option.some.injEq] at h
  obtain ⟨r, -, hash, -, id, -, label, -, prices, -, publicMetadata, hpublic, privateMetadata,
    hprivate, admin, -, entropy, -, royalty, hroyalty, rfl⟩ := h
  exact forall_mem_frees.2 ⟨Metadata.isFree_of_optional hpublic,
    Metadata.isFree_of_optional hprivate, Record.isFree_of_maybe hroyalty⟩

/-- The data of tokens in a message to a new dealer can be read again. -/
theorem literal_of_ofJson? {v : Json} {d : DealerInit} (h : ofJson? v = some d) (hv : v.IsFree) :
    (∀ m ∈ d.publicMetadata, m.Literal) ∧ ∀ m ∈ d.privateMetadata, m.Literal := by
  simp only [ofJson?, Option.bind_eq_bind, Option.bind_eq_some_iff, Option.pure_def,
    Option.some.injEq] at h
  obtain ⟨r, hr, hash, -, id, -, label, -, prices, -, publicMetadata, hpublic, privateMetadata,
    hprivate, admin, -, entropy, -, royalty, -, rfl⟩ := h
  have hfields := Record.isFree_of_record? hr hv
  exact ⟨Metadata.literal_of_optional hfields hpublic,
    Metadata.literal_of_optional hfields hprivate⟩

theorem readable_of_isFree {d : DealerInit} (h : ∀ w ∈ d.frees, w.IsFree) :
    d.toJson.readable = true := by
  obtain ⟨hpublic, hprivate, hroyalty⟩ := forall_mem_frees.1 h
  have hpublic : (Json.ofOption Wire.toJson d.publicMetadata).readable = true :=
    Json.readable_ofOption fun m hm => Metadata.readable_of_isFree (hpublic m hm)
  have hprivate : (Json.ofOption Wire.toJson d.privateMetadata).readable = true :=
    Json.readable_ofOption fun m hm => Metadata.readable_of_isFree (hprivate m hm)
  have hroyalty : (Json.ofOption id d.royaltyInfo).readable = true :=
    Json.readable_ofOption fun w hw => (hroyalty w hw).closed.readable
  simp [toJson, hpublic, hprivate, hroyalty]

/-- The start of a dealer is read back, unless a free value in it is in the way. -/
theorem ofJson?_toJson_of_isFree {d : DealerInit} (h : ∀ w ∈ d.frees, w.IsFree) :
    ofJson? d.toJson = Json.unlessReserved d.frees d.withoutNulls := by
  obtain ⟨hpublic, hprivate, hroyalty⟩ := forall_mem_frees.1 h
  let r : Record := ⟨[("admin", .ofOption .str d.admin), ("entropy", .str d.entropy),
    ("prices", Wire.toJson d.prices),
    ("private_metadata", .ofOption Wire.toJson d.privateMetadata),
    ("public_metadata", .ofOption Wire.toJson d.publicMetadata),
    ("royalty_info", .ofOption id d.royaltyInfo), ("snip721_code_hash", .str d.childCodeHash),
    ("snip721_code_id", .ofUInt64 d.childCodeId), ("snip721_label", .str d.childLabel)], false⟩
  have hrecord : d.toJson.record? ["snip721_code_hash", "snip721_code_id", "snip721_label",
      "prices", "public_metadata", "private_metadata", "admin", "entropy", "royalty_info"] =
    some r := rfl
  have hhash : r.required "snip721_code_hash" Json.string? = some d.childCodeHash := rfl
  have hid : r.required "snip721_code_id" Json.uint64? = some d.childCodeId := rfl
  have hlabel : r.required "snip721_label" Json.string? = some d.childLabel := rfl
  have hprices : r.required "prices" Wire.ofJson? = some d.prices := ofJson?_toJson d.prices
  have hpublic : r.optional "public_metadata" Wire.ofJson? =
      Json.unlessReserved (d.publicMetadata.toList.flatMap Metadata.frees)
        (d.publicMetadata.map Metadata.withoutNulls) :=
    Metadata.optional_of_isFree rfl hpublic
  have hprivate : r.optional "private_metadata" Wire.ofJson? =
      Json.unlessReserved (d.privateMetadata.toList.flatMap Metadata.frees)
        (d.privateMetadata.map Metadata.withoutNulls) :=
    Metadata.optional_of_isFree rfl hprivate
  have hadmin : r.optional "admin" Json.string? = some d.admin :=
    Json.optional_ofOption Json.string?_str nofun rfl
  have hentropy : r.required "entropy" Json.string? = some d.entropy := rfl
  have hroyalty : r.maybe "royalty_info" Json.free? =
      Json.unlessReserved d.royaltyInfo.toList (Json.orMissing d.royaltyInfo) :=
    Record.maybe_free (Json.ofOption_id _) hroyalty
  simp only [ofJson?, hrecord, hhash, hid, hlabel, hprices, hpublic, hprivate, hadmin, hentropy,
    hroyalty, bind, Option.bind_some, pure]
  exact Json.unlessReserved_bind _ _ (Json.unlessReserved_bind _ _
    (Json.unlessReserved_bind_some _ _))

end DealerInit

/-- What a fresh contract starts with is a free value, whatever it is read as later. -/
theorem InstantiateMsg.isFree_of_fresh {v w : Json} (h : ofJson? v = some (fresh w)) :
    w.IsFree := by
  obtain ⟨⟨name, payload⟩, -, h⟩ := Option.bind_eq_some_iff.1 h
  dsimp only at h
  split_ifs at h
  · obtain ⟨m, -, hm⟩ := Option.bind_eq_some_iff.1 h
    cases hm
  · obtain ⟨u, hu, hw⟩ := Option.bind_eq_some_iff.1 h
    cases hw
    exact Json.isFree_of_free? hu

namespace Msg

/-- The free values in a message. -/
def frees : Msg → List Json
  | instantiate _ _ _ initMsg _ _ _ => [initMsg]
  | execute _ _ _ msg _ => [msg]
  | storeCode .. | send .. => []

/-- What is read into a message is free. -/
theorem isFree_of_ofJson? {v : Json} {m : Msg} (h : ofJson? v = some m) :
    ∀ w ∈ m.frees, w.IsFree := by
  obtain ⟨⟨kind, fields⟩, -, h⟩ := Option.bind_eq_some_iff.1 h
  simp only [ofFields?, Option.bind_eq_bind, Option.pure_def] at h
  split_ifs at h <;> simp only [Option.bind_eq_some_iff, Option.some.injEq] at h
  · obtain ⟨r, -, sender, -, wasm, -, rfl⟩ := h
    exact nofun
  · obtain ⟨r, -, sender, -, id, -, hash, -, initMsg, hinitMsg, label, -, admin, -, funds, -,
      rfl⟩ := h
    obtain ⟨w, -, hw⟩ := Option.bind_eq_some_iff.1 hinitMsg
    simpa [frees] using Json.isFree_of_free? hw
  · obtain ⟨r, -, sender, -, contract, -, hash, -, msg, hmsg, funds, -, rfl⟩ := h
    obtain ⟨w, -, hw⟩ := Option.bind_eq_some_iff.1 hmsg
    simpa [frees] using Json.isFree_of_free? hw
  · obtain ⟨r, -, sender, -, recipient, -, amount, -, rfl⟩ := h
    exact nofun

theorem readable_of_isFree {m : Msg} (h : ∀ w ∈ m.frees, w.IsFree) :
    m.toJson.readable = true := by
  cases m with
  | storeCode => simp [toJson]
  | instantiate sender id hash initMsg label admin funds =>
    have hinitMsg : initMsg.readable = true := (h initMsg List.mem_cons_self).closed.readable
    simp [toJson, hinitMsg]
  | execute sender contract hash msg funds =>
    have hmsg : msg.readable = true := (h msg List.mem_cons_self).closed.readable
    simp [toJson, hmsg]
  | send => simp [toJson]

/-- A message is read back, unless a free value in it is in the way. -/
theorem ofJson?_toJson_of_isFree {m : Msg} (h : ∀ w ∈ m.frees, w.IsFree) :
    ofJson? m.toJson = Json.unlessReserved m.frees m := by
  have hreadable := readable_of_isFree h
  cases m with
  | storeCode sender wasm =>
    let r : Record := ⟨[("sender", .str sender), ("wasm_byte_code", Base64.toJson wasm)], false⟩
    have htagged : (storeCode sender wasm).toJson.tagged? =
      some ("store_code", .obj r.fields) := Json.tagged?_obj hreadable rfl
    have hrecord : (Json.obj r.fields).record? ["sender", "wasm_byte_code"] = some r := rfl
    have hsender : r.required "sender" Json.string? = some sender := rfl
    have hwasm : r.required "wasm_byte_code" Base64.ofJson? = some wasm :=
      Base64.ofJson?_toJson wasm
    simp [ofJson?, htagged, ofFields?, hrecord, hsender, hwasm, frees]
  | instantiate sender id hash initMsg label admin funds =>
    let r : Record := ⟨[("admin", .ofOption .str admin), ("code_hash", .str hash),
      ("code_id", .ofUInt64 id), ("init_funds", Wire.toJson funds), ("init_msg", initMsg),
      ("label", .str label), ("sender", .str sender)], false⟩
    have htagged : (instantiate sender id hash initMsg label admin funds).toJson.tagged? =
      some ("instantiate_contract", .obj r.fields) := Json.tagged?_obj hreadable rfl
    have hrecord : (Json.obj r.fields).record? ["sender", "code_id", "code_hash", "init_msg",
      "label", "admin", "init_funds"] = some r := rfl
    have hsender : r.required "sender" Json.string? = some sender := rfl
    have hid : r.required "code_id" Json.uint64? = some id := rfl
    have hhash : r.required "code_hash" Json.string? = some hash := rfl
    have hinitMsg : r.required "init_msg" Json.free? = Json.unlessReserved [initMsg] initMsg :=
      (h initMsg List.mem_cons_self).free?_eq_unlessReserved
    have hlabel : r.required "label" Json.string? = some label := rfl
    have hadmin : r.optional "admin" Json.string? = some admin :=
      Json.optional_ofOption Json.string?_str nofun rfl
    have hfunds : r.defaulted "init_funds" [] Wire.ofJson? = some funds := ofJson?_toJson funds
    simp [ofJson?, htagged, ofFields?, hrecord, hsender, hid, hhash, hinitMsg, hlabel, hadmin,
      hfunds, frees, Json.unlessReserved_bind_some]
  | execute sender contract hash msg funds =>
    let r : Record := ⟨[("code_hash", .str hash), ("contract", .str contract), ("msg", msg),
      ("sender", .str sender), ("sent_funds", Wire.toJson funds)], false⟩
    have htagged : (execute sender contract hash msg funds).toJson.tagged? =
      some ("execute_contract", .obj r.fields) := Json.tagged?_obj hreadable rfl
    have hrecord : (Json.obj r.fields).record? ["sender", "contract", "code_hash", "msg",
      "sent_funds"] = some r := rfl
    have hsender : r.required "sender" Json.string? = some sender := rfl
    have hcontract : r.required "contract" Json.string? = some contract := rfl
    have hhash : r.required "code_hash" Json.string? = some hash := rfl
    have hmsg : r.required "msg" Json.free? = Json.unlessReserved [msg] msg :=
      (h msg List.mem_cons_self).free?_eq_unlessReserved
    have hfunds : r.defaulted "sent_funds" [] Wire.ofJson? = some funds := ofJson?_toJson funds
    simp [ofJson?, htagged, ofFields?, hrecord, hsender, hcontract, hhash, hmsg, hfunds, frees,
      Json.unlessReserved_bind_some]
  | send sender recipient amount =>
    let r : Record := ⟨[("amount", Wire.toJson amount), ("from_address", .str sender),
      ("to_address", .str recipient)], false⟩
    have htagged : (send sender recipient amount).toJson.tagged? =
      some ("send", .obj r.fields) := Json.tagged?_obj hreadable rfl
    have hrecord : (Json.obj r.fields).record? ["from_address", "to_address", "amount"] = some r :=
      rfl
    have hsender : r.required "from_address" Json.string? = some sender := rfl
    have hrecipient : r.required "to_address" Json.string? = some recipient := rfl
    have hamount : r.required "amount" Wire.ofJson? = some amount := ofJson?_toJson amount
    simp [ofJson?, htagged, ofFields?, hrecord, hsender, hrecipient, hamount, frees]

end Msg

end Handover
