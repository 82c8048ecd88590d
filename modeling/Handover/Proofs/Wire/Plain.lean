import Handover.Contract.Calls
import Handover.Network
import Handover.Proofs.Contract.Lawful
import Handover.Proofs.Json.Readable
import Handover.Proofs.Text.Count

/-!
# Types without free values

Coins, transactions, nodes, code and what the contracts are told, asked and answer : each value is
read back from its written form, and nothing in that form is unreadable.
-/

namespace Handover

/-! ## Lawful types -/

instance : LawfulWire UInt64 := ⟨fun _ => rfl⟩

instance : LawfulWire Coin := ⟨fun c => by
  change Coin.ofJson? c.toJson = some c
  have hamount := count?_toString c.amount.isLt
  simp only [Nat.toString_eq_repr] at hamount
  simp [Coin.toJson, Coin.ofJson?, Json.record?, Record.required, List.lookup_cons, hamount]⟩

instance : LawfulWire TxOptions := ⟨fun o => by
  change TxOptions.ofJson? o.toJson = some o
  obtain ⟨gasLimit, memo⟩ := o
  cases memo <;> rfl⟩

instance : LawfulWire Attribute := ⟨fun _ => rfl⟩

instance : LawfulWire TxEvent := ⟨fun e => by
  change TxEvent.ofJson? e.toJson = some e
  simp [TxEvent.toJson, TxEvent.ofJson?, Json.record?, Record.required, List.lookup_cons]⟩

instance : LawfulWire TxLog := ⟨fun l => by
  change TxLog.ofJson? l.toJson = some l
  simp [TxLog.toJson, TxLog.ofJson?, Json.record?, Record.required, List.lookup_cons]⟩

instance : LawfulWire TxResponse := ⟨fun t => by
  change TxResponse.ofJson? t.toJson = some t
  simp [TxResponse.toJson, TxResponse.ofJson?, Json.record?, Record.required, Record.defaulted,
    List.lookup_cons, Json.ofUInt64, Json.uint64?, Json.list?_arr_map]⟩

instance : LawfulWire ContractInfo := ⟨fun _ => rfl⟩

instance : LawfulWire CodeArtifact := ⟨fun _ => rfl⟩

instance : LawfulWire NodeInfo := ⟨fun n => by cases n <;> rfl⟩

instance : LawfulWire MigrationQuery := ⟨fun q => by cases q <;> rfl⟩

instance : LawfulWire MigrationInfoAnswer := ⟨fun a => by
  obtain ⟨contract⟩ := a
  cases contract <;> rfl⟩

instance : LawfulWire DealerMsg := ⟨fun m => by cases m; rfl⟩

instance : LawfulWire DealerQuery := ⟨fun q => by cases q <;> rfl⟩

instance : LawfulWire PricesAnswer := ⟨fun a => by
  change PricesAnswer.ofJson? a.toJson = some a
  simp [PricesAnswer.toJson, PricesAnswer.ofJson?, Json.inField?, Json.record?, Record.required]⟩

instance : LawfulWire ChildAnswer := ⟨fun _ => rfl⟩

/-! ## Readable forms -/

instance : ReadableWire Coin := ⟨fun _ => rfl⟩

instance : ReadableWire TxOptions := ⟨fun o => by
  obtain ⟨gasLimit, memo⟩ := o
  cases memo <;> rfl⟩

instance : ReadableWire Attribute := ⟨fun _ => rfl⟩

instance : ReadableWire TxEvent := ⟨fun e => by
  change e.toJson.readable = true
  simp [TxEvent.toJson]⟩

instance : ReadableWire TxLog := ⟨fun l => by
  change l.toJson.readable = true
  simp [TxLog.toJson]⟩

instance : ReadableWire TxResponse := ⟨fun t => by
  change t.toJson.readable = true
  simp [TxResponse.toJson, Json.readable_arr_map Json.readable_base64]⟩

instance : ReadableWire ContractInfo := ⟨fun _ => rfl⟩

instance : ReadableWire CodeArtifact := ⟨fun _ => rfl⟩

instance : ReadableWire NodeInfo := ⟨fun n => by cases n <;> rfl⟩

instance : ReadableWire Permission := ⟨fun _ => rfl⟩

instance : ReadableWire PermitParams := ⟨fun p => by
  change p.toJson.readable = true
  simp [PermitParams.toJson]⟩

instance : ReadableWire PubKey := ⟨fun _ => rfl⟩

instance : ReadableWire PermitSignature := ⟨fun s => by
  change s.toJson.readable = true
  simp [PermitSignature.toJson]⟩

instance : ReadableWire Permit := ⟨fun p => by
  change p.toJson.readable = true
  simp [Permit.toJson]⟩

instance : ReadableWire MigrateFrom := ⟨fun m => by
  change m.toJson.readable = true
  simp [MigrateFrom.toJson]⟩

instance : ReadableWire Migration := ⟨fun m => by
  change m.toJson.readable = true
  simp [Migration.toJson]⟩

instance : ReadableWire MigrationQuery := ⟨fun q => by cases q <;> rfl⟩

instance : ReadableWire MigrationInfoAnswer := ⟨fun a => by
  obtain ⟨contract⟩ := a
  cases contract <;> rfl⟩

instance : ReadableWire DealerMsg := ⟨fun m => by cases m; rfl⟩

instance : ReadableWire DealerQuery := ⟨fun q => by cases q <;> rfl⟩

instance : ReadableWire PricesAnswer := ⟨fun a => by
  change a.toJson.readable = true
  simp [PricesAnswer.toJson]⟩

instance : ReadableWire ChildAnswer := ⟨fun _ => rfl⟩

instance : ReadableWire CollectionMsg := ⟨fun m => by
  change m.toJson.readable = true
  cases m <;> simp [CollectionMsg.toJson]⟩

instance : ReadableWire ImportAnswer := ⟨fun a => by
  change a.toJson.readable = true
  simp [ImportAnswer.toJson]⟩

instance : ReadableWire CollectionAnswer := ⟨fun a => by
  change a.toJson.readable = true
  cases a
  simp [CollectionAnswer.toJson]⟩

instance : ReadableWire PermitQuery := ⟨fun q => by
  change q.toJson.readable = true
  cases q <;> simp [PermitQuery.toJson]⟩

instance : ReadableWire CollectionQuery := ⟨fun q => by
  change q.toJson.readable = true
  cases q <;> simp [CollectionQuery.toJson]⟩

instance : ReadableWire NumTokensAnswer := ⟨fun _ => rfl⟩

instance : ReadableWire MintersAnswer := ⟨fun a => by
  change a.toJson.readable = true
  simp [MintersAnswer.toJson]⟩

end Handover
