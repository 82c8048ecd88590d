import Handover.Contract.Basic
import Handover.Json.Writer
import Handover.Migration.Ignored

/-!
# Snapshots

A snapshot holds what a contract answered to a set of queries. Two snapshots are equivalent
when each answer of the first is, but for the ignored fields, the answer of the second. A
query that the second did not answer counts as answered with `null`.
-/

namespace Handover

/-- The queries whose answers are compared. -/
inductive VerifyQuery where
  | contractInfo
  | contractConfig
  | numTokens
  | minters
  | batchNftDossier
  | transactionHistory
  deriving DecidableEq, Repr

namespace VerifyQuery

/-- The name of a query. -/
def name : VerifyQuery → String
  | contractInfo => "contract_info"
  | contractConfig => "contract_config"
  | numTokens => "num_tokens"
  | minters => "minters"
  | batchNftDossier => "batch_nft_dossier"
  | transactionHistory => "transaction_history"

/-- Every query, in the order of comparison. -/
def all : List VerifyQuery :=
  [contractInfo, contractConfig, numTokens, minters, batchNftDossier, transactionHistory]

/-- The query of a name. -/
def ofName? (name : String) : Option VerifyQuery :=
  all.find? fun q => q.name == name

/-- The queries that are compared unless others are asked for. The history is not among them,
since imported tokens are recorded as fresh mints. -/
def standard : List VerifyQuery :=
  [contractInfo, contractConfig, numTokens, minters, batchNftDossier]

end VerifyQuery

/-- What changes when a token is minted again : its creators and the time. -/
def standardIgnored : List String :=
  ["mint_run_info.collection_creator", "mint_run_info.token_creator",
    "mint_run_info.time_of_minting"]

/-- The answers of one contract at one time. -/
structure Snapshot where
  contract : ContractInfo
  answers : VerifyQuery → Option Json

/-- An answer that differs, both times without the ignored fields. -/
structure Difference where
  query : VerifyQuery
  expected : Json
  actual : Json
  deriving DecidableEq, Repr

namespace Difference

/-- The expected answer as it is shown. -/
def expectedText (d : Difference) : String :=
  d.expected.pretty

/-- The actual answer as it is shown. -/
def actualText (d : Difference) : String :=
  d.actual.pretty

/-- The wording of a difference. -/
def message (d : Difference) : String :=
  "`" ++ d.query.name ++ "` differs after migration\nexpected:\n" ++ d.expectedText ++
    "\nactual:\n" ++ d.actualText

end Difference

namespace Snapshot

/-- A snapshot without answers. -/
def empty (contract : ContractInfo) : Snapshot :=
  ⟨contract, fun _ => none⟩

/-- A snapshot with one more answer. -/
def put (s : Snapshot) (query : VerifyQuery) (answer : Json) : Snapshot :=
  { s with answers := fun q => if q = query then some answer else s.answers q }

/-- How the answers to one query differ, if they do. -/
def differenceAt (ignored : List String) (expected actual : Snapshot) (query : VerifyQuery) :
    Option Difference :=
  match expected.answers query with
  | none => none
  | some answer =>
    let e := answer.stripAll ignored
    let a := ((actual.answers query).getD .null).stripAll ignored
    if e.same a then none else some ⟨query, e, a⟩

/-- The first query whose answers differ. -/
def difference (ignored : List String) (expected actual : Snapshot) : Option Difference :=
  VerifyQuery.all.findSome? (differenceAt ignored expected actual)

end Snapshot

end Handover
