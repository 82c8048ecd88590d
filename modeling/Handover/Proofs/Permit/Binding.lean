import Handover.Permit.Keys
import Handover.Proofs.Contract.Lawful

/-!
# What a signature of a permit binds

The sign document holds the parameters of a permit as text between brackets, commas and quotes,
and whoever asks for a permit chooses that text. Nothing chosen can pass for structure : the
document is read back as the tree that it was written from, and the tree has each parameter in
a place of its own. So permits with different parameters have different documents
(`PermitParams.signDocBytes_injective`), and a signature that is good for the bytes of one
document only is good for one set of parameters only.
-/

namespace Handover

/-! ## The document -/

namespace Json

theorem exactItems_map_str (depth : Nat) (xs : List String) :
    exactItems depth (xs.map .str) = true := by
  induction xs with
  | nil => rfl
  | cons x xs ih => simp [exactItems, exactWithin, ih]

/-- A list of texts is told by its tree. -/
theorem ofStrings_injective : Function.Injective ofStrings := by
  intro xs ys h
  have hread := congrArg strings? h
  rw [strings?_ofStrings, strings?_ofStrings] at hread
  exact Option.some.inj hread

end Json

/-- A value with a lawful written form is told by it. -/
theorem toJson_injective {α : Type} [Wire α] [LawfulWire α] :
    Function.Injective (Wire.toJson : α → Json) := by
  intro a b h
  have hread := congrArg (ofJson? (α := α)) h
  rw [ofJson?_toJson, ofJson?_toJson] at hread
  exact Option.some.inj hread

namespace PermitParams

/-- However many tokens and permissions there are, the document nests no deeper than readers
go. -/
theorem exactWithin_signDocTree (p : PermitParams) :
    Json.exactWithin Json.depthLimit p.signDocTree = true := by
  have htokens : ∀ depth, Json.exactItems depth (p.allowedTokens.map .str) = true := fun depth =>
    Json.exactItems_map_str depth _
  have hpermissions : ∀ depth,
      Json.exactItems depth (p.permissions.map Permission.toJson) = true := by
    intro depth
    have hnames : p.permissions.map Permission.toJson =
        (p.permissions.map Permission.name).map .str := by
      rw [List.map_map]
      rfl
    rw [hnames]
    exact Json.exactItems_map_str depth _
  simp [signDocTree, Json.exactWithin, Json.exactFields, Json.exactItems, Json.depthLimit,
    Json.ofStrings, htokens, Wire.toJson, hpermissions]

/-- The tree has every parameter in it. -/
theorem signDocTree_injective : Function.Injective signDocTree := by
  intro p q h
  simp only [signDocTree, Json.obj.injEq, Json.arr.injEq, List.cons.injEq, Prod.mk.injEq,
    Json.str.injEq, true_and, and_true] at h
  obtain ⟨hchain, htokens, hpermissions, hname⟩ := h
  cases p
  cases q
  simp only [PermitParams.mk.injEq]
  exact ⟨Json.ofStrings_injective htokens, hname, hchain, toJson_injective hpermissions⟩

/-- The document is read back as its tree. -/
theorem readBytes_signDocBytes (p : PermitParams) :
    Json.readBytes p.signDocBytes = some p.signDocTree :=
  Json.readBytes_compact p.exactWithin_signDocTree

/-- The bytes that are signed tell the whole document. -/
theorem signDocBytes_injective : Function.Injective signDocBytes := by
  intro p q h
  have hread := congrArg Json.readBytes h
  rw [readBytes_signDocBytes, readBytes_signDocBytes] at hread
  exact signDocTree_injective (Option.some.inj hread)

end PermitParams

/-! ## The signature -/

/-- A signature that was made for one message is good for another only if that is the same. Any
two messages with one digest share their signatures, so this is asked of the messages at hand. -/
def PermitSignature.BindsTo (s : PermitSignature) (signed other : Bytes) : Prop :=
  ∀ key sig, Secp256k1.Point.ofBytes? s.pubKey.value = some key →
    Ecdsa.Signature.ofBytes? s.signature = some sig → Ecdsa.verify key other sig = true →
    other = signed

/-- A permit that verifies carries a signature of its own document. -/
theorem Permit.verify_eq_ok {p : Permit} (h : p.verify = .ok ()) :
    ∃ key sig, Secp256k1.Point.ofBytes? p.signature.pubKey.value = some key ∧
      Ecdsa.Signature.ofBytes? p.signature.signature = some sig ∧
      Ecdsa.verify key p.params.signDocBytes sig = true := by
  unfold verify at h
  split at h
  · cases h
  · split at h
    · rename_i key sig hkey hsig
      split at h
      · exact ⟨key, sig, hkey, hsig, ‹_›⟩
      · cases h
    · cases h

namespace Permit

/-- A signature binds every parameter of its permit : parameters that differ anywhere have
different documents, and where the signature of one document is good for no other, it makes no
other parameters verify. -/
theorem signature_binds_params :
    Function.Injective PermitParams.signDocBytes ∧
      ∀ (s : PermitSignature) (p q : PermitParams), s.BindsTo p.signDocBytes q.signDocBytes →
        (Permit.mk q s).verify = .ok () → q = p := by
  refine ⟨PermitParams.signDocBytes_injective, fun s p q hbinds hverify => ?_⟩
  obtain ⟨key, sig, hkey, hsig, hgood⟩ := verify_eq_ok hverify
  exact PermitParams.signDocBytes_injective (hbinds key sig hkey hsig hgood)

/-- Parameters for one contract, whose name reads like the names of two. -/
def quotedToken : PermitParams := ⟨["a\",\"b"], "test", "secretdev-1", [.owner]⟩

/-- Parameters for the two contracts. -/
def twoTokens : PermitParams := ⟨["a", "b"], "test", "secretdev-1", [.owner]⟩

/-- The signature for one contract by the key whose secret is one. -/
def quotedSignature : PermitSignature where
  pubKey := ⟨PubKey.secp256k1, Secp256k1.generator.compressed⟩
  signature := (Ecdsa.Signature.mk
    37609862096005926162345772850795499423958852281141692156450666636589690773176
    9670718638291723519291139214813014965044452181725874209372008516618909838508).toBytes

/-- The signature for one contract verifies there, and not for the two contracts that its name
reads like. -/
theorem quotedSignature_binds_params :
    (Permit.mk quotedToken quotedSignature).verify = .ok () ∧
      (Permit.mk twoTokens quotedSignature).verify ≠ .ok () := by
  refine ⟨by decide +kernel, fun hverify => ?_⟩
  have hbinds : quotedSignature.BindsTo quotedToken.signDocBytes twoTokens.signDocBytes := by
    have hrefused : ∀ key ∈ Secp256k1.Point.ofBytes? quotedSignature.pubKey.value,
        ∀ sig ∈ Ecdsa.Signature.ofBytes? quotedSignature.signature,
          Ecdsa.verify key twoTokens.signDocBytes sig = false := by
      decide +kernel
    intro key sig hkey hsig hgood
    rw [hrefused key hkey sig hsig] at hgood
    cases hgood
  have hsame : twoTokens = quotedToken := signature_binds_params.2 _ _ _ hbinds hverify
  exact absurd hsame (by decide)

end Permit

end Handover
