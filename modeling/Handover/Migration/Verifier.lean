import Handover.Contract.Calls

/-!
# Verifying a migration

A verifier asks a contract its queries one after the other and keeps the answers. After the
migration it asks the new instance the same, and the two sets of answers have to agree but for
the ignored fields.
-/

namespace Handover

/-- What is asked, and what is left out of the comparison. -/
structure StateVerifier where
  queries : List VerifyQuery
  ignored : List String
  /-- The tokens whose dossiers are compared. -/
  tokenIds : List String
  permitName : String
  deriving DecidableEq, Repr

namespace StateVerifier

/-- The standard queries and ignored fields. -/
def standard (permitName : String) (tokenIds : List String) : StateVerifier :=
  ⟨VerifyQuery.standard, standardIgnored, tokenIds, permitName⟩

/-- The answer of a contract to one query. -/
def answer (v : StateVerifier) (viewer : Signer) (contract : ContractInfo) :
    VerifyQuery → Procedure Json
  | .contractInfo => contract.queryContractInfo
  | .contractConfig => contract.queryContractConfig
  | .numTokens => Json.ofUInt32 <$> contract.queryNumTokens
  | .minters => Json.ofStrings <$> contract.queryMinters
  | .batchNftDossier => contract.queryBatchNftDossier viewer v.permitName v.tokenIds
  | .transactionHistory => contract.queryTransactionHistory viewer v.permitName

/-- The answers of a contract to a list of queries, put into a snapshot. -/
def captureFrom (v : StateVerifier) (viewer : Signer) (snapshot : Snapshot) :
    List VerifyQuery → Procedure Snapshot
  | [] => return snapshot
  | query :: queries => do
    let answer ← v.answer viewer snapshot.contract query
    captureFrom v viewer (snapshot.put query answer) queries

/-- The answers of a contract to all queries. -/
def capture (v : StateVerifier) (viewer : Signer) (contract : ContractInfo) :
    Procedure Snapshot :=
  v.captureFrom viewer (.empty contract) v.queries

/-- Fails with the first query whose answers differ. -/
def assertEquivalent (v : StateVerifier) (expected actual : Snapshot) : Except Fault Unit :=
  match Snapshot.difference v.ignored expected actual with
  | some difference => .error (.different difference)
  | none => .ok ()

end StateVerifier

end Handover
