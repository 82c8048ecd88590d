import Handover.Proofs.Ledger.Step

/-!
# The registry

Where contracts come from and go to, who may mint and who is told of a successor does not
depend on the tokens. The registry of a ledger is the ledger without them : what stands at each
address (`Contract.shell`), and how many addresses were given out. A message that only concerns
tokens leaves the registry as it is, and the others change it as `Registry.Step` lists
(`registryStep_of_step`). The invariants of contracts are proved for the registry.
-/

namespace Handover

/-! ## Contracts without tokens -/

/-- A collection without its tokens. -/
def Collection.shell (s : Collection) : Collection :=
  { s with tokens := [], importCursor := 0, history := [] }

namespace Contract

/-- A contract without its tokens. -/
def shell (c : Contract) : Contract :=
  match c.model with
  | .dealer _ => c
  | .collection s => c.withCollection s.shell

/-- The kind of a contract. -/
def kind (c : Contract) : ContractKind :=
  match c.model with
  | .dealer _ => .dealer
  | .collection _ => .migratable

theorem exists_collection_of_kind {c : Contract} (h : c.kind = .migratable) :
    ∃ s, c.model = .collection s := by
  cases hm : c.model with
  | dealer d => simp [kind, hm] at h
  | collection s => exact ⟨s, rfl⟩

theorem shell_of_dealer {c : Contract} {d : Dealer} (h : c.model = .dealer d) : c.shell = c := by
  simp [shell, h]

theorem shell_of_collection {c : Contract} {s : Collection} (h : c.model = .collection s) :
    c.shell = c.withCollection s.shell := by
  simp [shell, h]

@[simp] theorem model_shell_eq_dealer {c : Contract} {d : Dealer} :
    c.shell.model = .dealer d ↔ c.model = .dealer d := by
  cases hm : c.model with
  | dealer e => rw [shell_of_dealer hm, hm]
  | collection s => simp [shell_of_collection hm, withCollection]

theorem model_shell_of_collection {c : Contract} {s : Collection} (h : c.model = .collection s) :
    c.shell.model = .collection s.shell := by
  rw [shell_of_collection h, withCollection]

@[simp] theorem address_shell (c : Contract) : c.shell.address = c.address := by
  unfold shell
  split <;> rfl

@[simp] theorem codeHash_shell (c : Contract) : c.shell.codeHash = c.codeHash := by
  unfold shell
  split <;> rfl

@[simp] theorem mode_shell (c : Contract) : c.shell.mode = c.mode := by
  unfold shell
  split <;> rfl

@[simp] theorem migratedFrom_shell (c : Contract) : c.shell.migratedFrom = c.migratedFrom := by
  unfold shell
  split <;> rfl

@[simp] theorem migratedTo_shell (c : Contract) : c.shell.migratedTo = c.migratedTo := by
  unfold shell
  split <;> rfl

@[simp] theorem info_shell (c : Contract) : c.shell.info = c.info := by
  simp [info]

@[simp] theorem kind_shell (c : Contract) : c.shell.kind = c.kind := by
  cases hm : c.model with
  | dealer d => rw [shell_of_dealer hm]
  | collection s => simp [shell_of_collection hm, kind, withCollection, hm]

@[simp] theorem admin_shell (c : Contract) : c.shell.admin = c.admin := by
  cases hm : c.model with
  | dealer d => rw [shell_of_dealer hm]
  | collection s => simp [shell_of_collection hm, admin, withCollection, Collection.shell, hm]

theorem shell_withCollection (c : Contract) (s : Collection) :
    (c.withCollection s).shell = c.withCollection s.shell := rfl

/-- A collection with other tokens is the same without its tokens. -/
theorem shell_withCollection_eq {c : Contract} {s t : Collection} (h : c.model = .collection s)
    (hs : t.shell = s.shell) : (c.withCollection t).shell = c.shell := by
  rw [shell_withCollection, hs, shell_of_collection h]

@[simp] theorem shell_mode (c : Contract) (mode : Mode) :
    ({ c with mode } : Contract).shell = { c.shell with mode } := by
  cases hm : c.model <;> simp [shell, hm, withCollection]

@[simp] theorem shell_leaving (c : Contract) (mode : Mode) (successor : ContractInfo) :
    (Ledger.leaving c mode successor).shell = Ledger.leaving c.shell mode successor := by
  cases hm : c.model <;> simp [shell, Ledger.leaving, hm, withCollection]

@[simp] theorem shell_follow (old : String) (new : ContractInfo) (c : Contract) :
    (Ledger.follow old new c).shell = Ledger.follow old new c.shell := by
  cases hm : c.model with
  | collection s => simp [shell, Ledger.follow, hm, withCollection]
  | dealer d => by_cases hd : d.child.address = old <;> simp [shell, Ledger.follow, hm, hd]

end Contract

namespace Collection

/-- Importing a token changes nothing that the registry tells. -/
theorem shell_importToken (height time : Nat) (address : String) (s : Collection) (t : Token) :
    (Ledger.importToken height time address s t).shell = s.shell := rfl

theorem shell_foldl_importToken (height time : Nat) (address : String) :
    ∀ (ts : List Token) (s : Collection),
      (ts.foldl (Ledger.importToken height time address) s).shell = s.shell
  | [], _ => rfl
  | t :: ts, s => by rw [List.foldl_cons, shell_foldl_importToken, shell_importToken]

end Collection

/-! ## Registries -/

/-- What stands at each address, and how many addresses were given out. -/
structure Registry where
  shell? : String → Option Contract
  count : Nat

/-- The ledger without the tokens. -/
def Ledger.registry (l : Ledger) : Registry :=
  ⟨fun a => (l.contract? a).map Contract.shell, l.instantiated⟩

namespace Registry

/-- The registry with a contract in its place. -/
def put (R : Registry) (c : Contract) : Registry :=
  { R with shell? := Function.update R.shell? c.address (some c) }

/-- The registry after an address was given out. -/
def afterAddress (R : Registry) : Registry :=
  { R with count := R.count + 1 }

/-- The address that is given out next. -/
def nextAddress (R : Registry) : String :=
  Ledger.addressOf (R.count + 1)

/-- The registry after contracts were told of a new collection. -/
def tell (R : Registry) (notify : List String) (old : String) (new : ContractInfo) : Registry :=
  { R with
    shell? := fun a =>
      if a ∈ notify then (R.shell? a).map (Ledger.follow old new) else R.shell? a }

theorem shell?_put (R : Registry) (c : Contract) (a : String) :
    (R.put c).shell? a = if a = c.address then some c else R.shell? a := by
  simp [put, Function.update_apply]

@[simp] theorem count_put (R : Registry) (c : Contract) : (R.put c).count = R.count := rfl

@[simp] theorem count_afterAddress (R : Registry) : R.afterAddress.count = R.count + 1 := rfl

@[simp] theorem shell?_afterAddress (R : Registry) : R.afterAddress.shell? = R.shell? := rfl

@[simp] theorem count_tell (R : Registry) (notify : List String) (old : String)
    (new : ContractInfo) : (R.tell notify old new).count = R.count := rfl

/-- A collection is told nothing. -/
theorem shell?_tell_collection {R : Registry} {notify : List String} {old : String}
    {new : ContractInfo} {a : String} {c : Contract} {s : Collection}
    (hc : c.model = .collection s) :
    (R.tell notify old new).shell? a = some c ↔ R.shell? a = some c := by
  have hf : ∀ d, Ledger.follow old new d = c ↔ d = c := by
    intro d
    cases hd : d.model with
    | collection t => simp [Ledger.follow, hd]
    | dealer t =>
      have hdc : d ≠ c := by
        rintro rfl
        simp [hc] at hd
      refine iff_of_false ?_ hdc
      intro hfc
      have hm := congrArg Contract.model hfc
      simp only [Ledger.follow, hd, hc] at hm
      split at hm
      · cases hm
      · simp [hd] at hm
  change (if a ∈ notify then _ else _) = some c ↔ _
  split
  · simp [hf]
  · rfl

/-- A dealer was a dealer before it was told. -/
theorem exists_of_tell_dealer {R : Registry} {notify : List String} {old : String}
    {new : ContractInfo} {a : String} {c : Contract} {d : Dealer} (hd : c.model = .dealer d)
    (hc : (R.tell notify old new).shell? a = some c) :
    ∃ c₀ d₀, R.shell? a = some c₀ ∧ c₀.model = .dealer d₀ ∧
      c = if a ∈ notify then Ledger.follow old new c₀ else c₀ := by
  change (if a ∈ notify then _ else _) = some c at hc
  split at hc
  · next ha =>
    obtain ⟨c₀, hc₀, rfl⟩ := Option.map_eq_some_iff.1 hc
    cases hm : c₀.model with
    | collection t => simp [Ledger.follow, hm] at hd
    | dealer d₀ => exact ⟨c₀, d₀, hc₀, hm, (if_pos ha).symm⟩
  · next ha => exact ⟨c, d, hc, hd, (if_neg ha).symm⟩

end Registry

namespace Ledger

/-- To put a contract is to put it without its tokens into the registry. -/
theorem registry_put (l : Ledger) (c : Contract) :
    (l.put c).registry = l.registry.put c.shell := by
  unfold registry Registry.put
  simp only [contract?_put, instantiated_put, Contract.address_shell, Registry.mk.injEq, and_true]
  funext a
  by_cases h : a = c.address <;> simp [h]

/-- Changing only the tokens of a contract leaves the registry as it is. -/
theorem registry_put_of_shell_eq {l : Ledger} {a : String} {c d : Contract}
    (h : l.contract? a = some c) (hd : d.shell = c.shell) : (l.put d).registry = l.registry := by
  rw [registry_put, hd, Registry.put, Contract.address_shell, address_of_contract? h]
  have hr : l.registry.shell? a = some c.shell := by simp [registry, h]
  rw [Function.update_eq_self_iff.2 hr.symm]

theorem registry_afterAddress (l : Ledger) : l.afterAddress.registry = l.registry.afterAddress :=
  rfl

/-- To tell the subscribers is to tell them in the registry. -/
theorem registry_foldl_repoint (old : String) (new : ContractInfo) (notify : List String)
    (l : Ledger) : (notify.foldl (repoint old new) l).registry = l.registry.tell notify old new := by
  unfold registry Registry.tell
  simp only [instantiated_foldl_repoint, Registry.mk.injEq, and_true]
  funext a
  rw [contract?_foldl_repoint]
  by_cases h : a ∈ notify <;> simp [h, Function.comp_def]

/-- A contract stands in the registry without its tokens. -/
theorem shell?_registry {l : Ledger} {a : String} {c : Contract} (h : l.contract? a = some c) :
    l.registry.shell? a = some c.shell := by
  simp [registry, h]

end Ledger

/-! ## Steps -/

/-- What a message does to a registry when it goes through. -/
inductive Registry.Step (R : Registry) : Registry → Prop
  | quiet : Step R R
  | newCollection {address codeHash : String} {s : Collection} (new : address = R.nextAddress)
      (unsubscribed : s.notify = []) :
      Step R (R.afterAddress.put (.start address codeHash .running none (.collection s)))
  | newDealer (child : ContractInfo) {address codeHash : String} {s : Collection} {d : Dealer}
      (new : address = R.nextAddress) (childNew : child.address = R.afterAddress.nextAddress)
      (minters : s.minters = [address]) (notify : s.notify = [address]) (isChild : d.child = child) :
      Step R ((R.afterAddress.afterAddress.put
        (.start child.address child.codeHash .running none (.collection s))).put
          (.start address codeHash .running none (.dealer d)))
  | moveDealer (site : ContractInfo) {source child : Contract} {d : Dealer} {s : Collection}
      (new : site.address = R.nextAddress)
      (found : R.shell? source.address = some source) (isDealer : source.model = .dealer d)
      (running : source.mode = .running)
      (childFound : R.shell? d.child.address = some child) (isCollection : child.model = .collection s) :
      Step R (((R.afterAddress.put (child.withCollection
        { s with
          minters := s.minters.map (Ledger.swapped source.address site.address)
          notify := s.notify.map (Ledger.swapped source.address site.address) })).put
        (Ledger.leaving source .migratedOut site)).put
          (.start site.address site.codeHash .running (some source.info) (.dealer d)))
  | moveCollection (site : ContractInfo) {source : Contract} {s t : Collection}
      (new : site.address = R.nextAddress)
      (found : R.shell? source.address = some source) (isCollection : source.model = .collection s)
      (notMoved : source.migratedTo = none) (running : source.mode = .running)
      (admin : t.admin = s.admin) (minters : t.minters = s.minters) (notify : t.notify = s.notify) :
      Step R ((R.afterAddress.put (Ledger.leaving source .migrateOutStarted site)).put
        (.start site.address site.codeHash .migrateDataIn (some source.info) (.collection t)))
  | finish {destination source : Contract} {s : Collection} {origin : ContractInfo}
      (found : R.shell? destination.address = some destination)
      (isCollection : destination.model = .collection s)
      (importing : destination.mode = .migrateDataIn)
      (comesFrom : destination.migratedFrom = some origin)
      (sourceFound : (R.put { destination with mode := .running }).shell? origin.address =
        some source) :
      Step R (((R.put { destination with mode := .running }).put
        { source with mode := .migratedOut }).tell s.notify origin.address destination.info)

namespace Ledger

/-- A sale leaves the registry. -/
theorem Sale.registry_after {l : Ledger} {address : String} {funds : List Coin}
    (sale : Sale l address funds) (buyer : String) : (sale.after buyer).registry = l.registry :=
  registry_put_of_shell_eq sale.childFound
    (Contract.shell_withCollection_eq sale.isCollection rfl)

/-- A transfer leaves the registry. -/
theorem Transfer.registry_after {l : Ledger} {sender address tokenId : String}
    (t : Transfer l sender address tokenId) (recipient : String) :
    (t.after recipient).registry = l.registry :=
  registry_put_of_shell_eq t.found (Contract.shell_withCollection_eq t.isCollection rfl)

namespace Import

variable {l : Ledger} {sender address : String} (i : Import l sender address)

theorem shell_filled (stop : UInt32) : (i.filled stop).shell = i.collection.shell :=
  Collection.shell_foldl_importToken _ _ _ (i.slice stop) i.collection

theorem shell_destination (stop : UInt32) : (i.destination stop).shell = i.contract.shell :=
  Contract.shell_withCollection_eq i.isCollection (i.shell_filled stop)

/-- The end of an import first opens the new collection. -/
theorem registry_opened (stop : UInt32) :
    (i.opened stop).registry = l.registry.put { i.contract.shell with mode := .running } := by
  rw [opened, registry_put, Contract.shell_mode, shell_destination]

end Import

/-- A move of a dealer puts three contracts. -/
theorem DealerMove.registry_after {rules : ChainRules} {l : Ledger} {m : MigrateFrom}
    (d : DealerMove rules l m) (site : Site) : (d.after site).registry =
      ((l.registry.put (d.child.shell.withCollection
        { d.collection.shell with
          minters := d.collection.shell.minters.map (swapped d.source.address site.address)
          notify := d.collection.shell.notify.map (swapped d.source.address site.address) })).put
        (leaving d.source .migratedOut site.info)).put
          (.start site.address site.codeHash .running (some d.source.info) (.dealer d.dealer)) := by
  rw [after, registry_put, registry_put, registry_put, Contract.shell_leaving,
    Contract.shell_of_dealer d.isDealer, Contract.shell_of_collection d.isCollection]
  rfl

/-- A collection that starts to move puts two contracts. -/
theorem CollectionMove.registry_after {rules : ChainRules} {l : Ledger} {m : MigrateFrom}
    (d : CollectionMove rules l m) (site : Site) : (d.after site).registry =
      (l.registry.put (leaving d.source.shell .migrateOutStarted site.info)).put
        (d.successor site) := by
  rw [after, registry_put, registry_put, Contract.shell_leaving]
  rfl

/-- Every step changes the registry in one of the ways of `Registry.Step`. -/
theorem registryStep_of_step {rules : ChainRules} {l l' : Ledger} {m : Msg}
    (h : Step rules l m l') : l.registry.Step l'.registry := by
  cases h with
  | storeCode code _ _ _ => exact .quiet
  | send _ => exact .quiet
  | newCollection init _ _ _ =>
    rw [newCollection, registry_put, registry_afterAddress]
    exact .newCollection rfl rfl
  | newDealer init _ _ _ _ =>
    rw [afterNewDealer, registry_put, registry_put, registry_afterAddress, registry_afterAddress]
    exact .newDealer ⟨l.afterAddress.nextAddress, init.childCodeHash⟩ rfl rfl rfl rfl rfl
  | @moveDealer sender codeHash _ _ _ _ _ m _ _ d =>
    have hs := shell?_registry d.found
    rw [Contract.shell_of_dealer d.isDealer, ← address_of_contract? d.found] at hs
    rw [d.registry_after]
    exact .moveDealer (l.nextSite sender codeHash).info rfl hs d.isDealer d.running
      (shell?_registry d.childFound) (Contract.model_shell_of_collection d.isCollection)
  | @moveCollection sender codeHash _ _ _ _ _ m _ _ d =>
    have hs := shell?_registry d.found
    rw [← address_of_contract? d.found, ← Contract.address_shell] at hs
    rw [d.registry_after, CollectionMove.successor, ← Contract.info_shell]
    exact .moveCollection (l.nextSite sender codeHash).info rfl hs
      (Contract.model_shell_of_collection d.isCollection) (by simpa using d.notMoved)
      (by simpa using d.running) rfl rfl rfl
  | sell sale _ _ =>
    rw [sale.registry_after]
    exact .quiet
  | transfer t _ _ =>
    rw [t.registry_after]
    exact .quiet
  | importPage i _ _ _ =>
    rw [registry_put_of_shell_eq i.found (i.shell_destination _)]
    exact .quiet
  | finishImport i _ _ _ source hs =>
    have ho := shell?_registry hs
    rw [Import.finished, registry_foldl_repoint, registry_put, Contract.shell_mode]
    rw [i.registry_opened] at ho ⊢
    rw [← Contract.info_shell, i.shell_destination]
    refine .finish (s := i.collection.shell) ?_ (Contract.model_shell_of_collection i.isCollection)
      (by simpa using i.importing) (by simpa using i.comesFrom) ho
    rw [Contract.address_shell, address_of_contract? i.found]
    exact shell?_registry i.found

end Ledger

end Handover
