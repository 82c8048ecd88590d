import Handover.Proofs.Code.Turn
import Mathlib.Algebra.GroupWithZero.Nat
import Mathlib.Data.Finset.Card

/-!
# Code is stored once

Calls of a code store come one after the other, while the chain moves and files change, the
records apart (`CodeStore.Calls`). If no file of a record is an artifact at first, then what a call
hands out for a key every later call for it hands out, from its record alone, and the chain stores
code at most once for each key. A call that fails changes no record, a call changes no record of
another key, and the chain goes on to know what was handed out (`CodeStore.Calls.stores_once`).

What a run of calls does to the records is a `Course`. The statements are inductions over that.
-/

namespace Handover

namespace CodeStore

variable {s : CodeStore} {w v w' : Files × Chain} {t : Turn} {turns : List Turn} {key : CodeKey}
  {a : CodeArtifact}

/-- What the store answers about a record. -/
def answer (s : CodeStore) (w : Files × Chain) (key : CodeKey) : Option CodeArtifact :=
  ((s.cached key).play (Files.partner Chain.partner) w).1

/-- What the store answers is what is on record. -/
theorem answer_eq (s : CodeStore) (w : Files × Chain) (key : CodeKey) :
    s.answer w key = s.recorded w.1 key := by
  obtain ⟨fs, c⟩ := w
  rw [answer, cached, recorded]
  rfl

/-! ## What a call changes -/

/-- A call puts on record what it hands out, and changes no other record. If it fails it changes
none. -/
structure Records (s : CodeStore) (t : Turn) : Prop where
  settled : s.Settled t.after.1
  own : ∀ a, t.result = .ok a → s.recorded t.after.1 t.key = some a
  other : ∀ key, key.Ordinary → key ≠ t.key → s.recorded t.after.1 key = s.recorded t.before.1 key
  ofFailed : ∀ fault, t.result = .error fault → t.after.1 = t.before.1

/-- A call keeps the records, however it ends. -/
theorem Outcome.records (h : s.Outcome t) (ordinary : t.key.Ordinary)
    (settled : s.Settled t.before.1) : s.Records t := by
  cases h with
  | found a had result same asked =>
    refine ⟨same ▸ settled, fun b hb => ?_, fun key _ _ => by rw [same], fun fault hf => ?_⟩
    · rw [same, had, Except.ok.inj (result.symm.trans hb)]
    · rw [same]
  | failed fault lacked result files uploads =>
    refine ⟨files ▸ settled, fun b hb => ?_, fun key _ _ => by rw [files], fun _ _ => files⟩
    exact absurd (result.symm.trans hb) nofun
  | stored a lacked result uploaded written =>
    obtain ⟨hsettled, hrecorded⟩ := settled.write ordinary written
    refine ⟨hsettled, fun b hb => ?_, fun key hkey hne => ?_, fun fault hf => ?_⟩
    · rw [hrecorded _ ordinary, if_pos rfl, Except.ok.inj (result.symm.trans hb)]
    · rw [hrecorded key hkey, if_neg hne]
    · exact absurd (result.symm.trans hf) nofun

/-- What was on record stays on record. -/
theorem Outcome.recorded_stays (h : s.Outcome t) (records : s.Records t) (ordinary : key.Ordinary)
    (had : s.recorded t.before.1 key = some a) : s.recorded t.after.1 key = some a := by
  by_cases hkey : key = t.key
  · subst hkey
    cases h with
    | found b had' result same asked => rw [same, had]
    | failed fault lacked | stored b lacked => rw [had] at lacked; cases lacked
  · rw [records.other key ordinary hkey, had]

/-- Code is stored at most once, and then the key had no record and gets one. -/
theorem Outcome.uploads_eq (h : s.Outcome t) : t.uploads = 0 ∨
    t.uploads = 1 ∧ s.recorded t.before.1 t.key = none ∧ ∃ a, t.result = .ok a := by
  rw [Turn.uploads]
  cases h with
  | found a had result same asked => exact Or.inl (by rw [same, Nat.sub_self])
  | failed fault lacked result files uploads => exact Or.inl (by rw [uploads, Nat.sub_self])
  | stored a lacked result uploaded written =>
    exact Or.inr ⟨by rw [uploaded.uploads, Nat.add_sub_cancel_left], lacked, a, result⟩

/-- The chain knows what is on record. -/
def Known (s : CodeStore) (w : Files × Chain) : Prop :=
  ∀ key, key.Ordinary → ∀ a, s.recorded w.1 key = some a → w.2.Knows a

/-- If the chain knows what is on record before a call, it does after it. -/
theorem Outcome.known (h : s.Outcome t) (records : s.Records t)
    (codes : t.before.2.ledger.codes <+: t.after.2.ledger.codes) (known : s.Known t.before) :
    s.Known t.after := by
  intro key ordinary a ha
  by_cases hkey : key = t.key
  · subst hkey
    cases h with
    | found b had result same asked =>
      rw [same] at ha
      exact (known t.key ordinary a ha).mono codes
    | failed fault lacked result files => rw [files, lacked] at ha; cases ha
    | stored b lacked result uploaded =>
      rw [records.own b result] at ha
      exact Option.some.inj ha ▸ uploaded.knows
  · rw [records.other key ordinary hkey] at ha
    exact (known key ordinary a ha).mono codes

/-! ## Runs of calls -/

/-- Calls one after the other. Between them the chain moves and files change, but for the
records. -/
inductive Calls (s : CodeStore) : Files × Chain → List Turn → Files × Chain → Prop
  | nil {w : Files × Chain} : Calls s w [] w
  | chain {w w' : Files × Chain} {turns : List Turn} (m : ChainMove)
      (rest : Calls s (w.1, w.2.after m) turns w') : Calls s w turns w'
  | files {fs' : Files} {w w' : Files × Chain} {turns : List Turn}
      (undisturbed : s.Undisturbed w.1 fs') (rest : Calls s (fs', w.2) turns w') :
      Calls s w turns w'
  | call {w w' : Files × Chain} {turns : List Turn} (g : GasSettings) (uploader path : String)
      {key : CodeKey} (ordinary : key.Ordinary) (writable : s.Writable w.1 key)
      (rest : Calls s (s.turn g uploader path key w).after turns w') :
      Calls s w (s.turn g uploader path key w :: turns) w'

/-- A run of calls, as far as the records and the codes of the chain tell. -/
inductive Course (s : CodeStore) : Files × Chain → List Turn → Files × Chain → Prop
  | nil {w : Files × Chain} : Course s w [] w
  | change {w v w' : Files × Chain} {turns : List Turn}
      (same : ∀ key, key.Ordinary → s.recorded v.1 key = s.recorded w.1 key)
      (codes : w.2.ledger.codes <+: v.2.ledger.codes) (rest : Course s v turns w') :
      Course s w turns w'
  | call {t : Turn} {turns : List Turn} {w' : Files × Chain} (ordinary : t.key.Ordinary)
      (outcome : s.Outcome t) (records : s.Records t)
      (codes : t.before.2.ledger.codes <+: t.after.2.ledger.codes)
      (rest : Course s t.after turns w') : Course s t.before (t :: turns) w'

/-- No call takes code from the chain. -/
theorem codes_turn (s : CodeStore) (g : GasSettings) (uploader path : String) (key : CodeKey)
    (w : Files × Chain) :
    w.2.ledger.codes <+: (s.turn g uploader path key w).after.2.ledger.codes :=
  Program.Ends.codes_grow (p := s.getOrStoreCode g uploader path key) ends_turn

/-- Neither calls nor what happens between them take code from the chain. -/
theorem Calls.codes_grow (h : s.Calls w turns w') :
    w.2.ledger.codes <+: w'.2.ledger.codes := by
  induction h with
  | nil => exact List.prefix_refl _
  | chain m _ ih => exact (Chain.codes_after _ m).trans ih
  | files _ _ ih => exact ih
  | call g uploader path _ _ _ ih => exact (s.codes_turn g uploader path _ _).trans ih

/-- Calls take their course if all that is kept is found at first, and the chain can number its
codes. -/
theorem Calls.course (h : s.Calls w turns w') (settled : s.Settled w.1)
    (fits : w'.2.ledger.codes.length < UInt64.size) : s.Course w turns w' := by
  induction h with
  | nil => exact .nil
  | @chain w w' turns m rest ih =>
    exact .change (v := (w.1, w.2.after m)) (fun _ _ => rfl) (w.2.codes_after m)
      (ih settled fits)
  | @files fs' w w' turns undisturbed rest ih =>
    exact .change (v := (fs', w.2)) (fun _ => undisturbed.recorded) (List.prefix_refl _)
      (ih (settled.undisturbed undisturbed) fits)
  | @call w w' turns g uploader path key ordinary writable rest ih =>
    have houtcome := outcome_turn g uploader path writable
      (rest.codes_grow.length_le.trans_lt fits)
    have hrecords := houtcome.records ordinary settled
    exact .call ordinary houtcome hrecords (s.codes_turn g uploader path key w)
      (ih hrecords.settled fits)

namespace Course

theorem codes_grow (h : s.Course w turns w') : w.2.ledger.codes <+: w'.2.ledger.codes := by
  induction h with
  | nil => exact List.prefix_refl _
  | change _ codes _ ih => exact codes.trans ih
  | call _ _ _ codes _ ih => exact codes.trans ih

/-- What is on record every call hands out, after a look at it. -/
theorem hands_out (h : s.Course w turns w') (ordinary : key.Ordinary)
    (had : s.recorded w.1 key = some a) : ∀ t ∈ turns, t.key = key →
      t.result = .ok a ∧ t.asked = [.read (s.cachePath key)] := by
  induction h with
  | nil => exact fun t ht => absurd ht List.not_mem_nil
  | change same _ _ ih => exact ih (by rw [same key ordinary, had])
  | @call t turns w' _ outcome records _ _ ih =>
    intro t' ht' hkey
    rcases List.mem_cons.1 ht' with rfl | ht'
    · subst hkey
      cases outcome with
      | found b had' result same asked =>
        obtain rfl := Option.some.inj (had.symm.trans had')
        exact ⟨result, asked⟩
      | failed fault lacked | stored b lacked => rw [had] at lacked; cases lacked
    · exact ih (outcome.recorded_stays records ordinary had) t' ht' hkey

/-- What a call handed out, every later call for its key hands out too, after a look at the record.
-/
theorem pairwise (h : s.Course w turns w') :
    turns.Pairwise fun t t' => t'.key = t.key → ∀ a, t.result = .ok a →
      t'.result = .ok a ∧ t'.asked = [.read (s.cachePath t.key)] := by
  induction h with
  | nil => exact .nil
  | change _ _ _ ih => exact ih
  | call ordinary outcome records codes rest ih =>
    refine .cons (fun t' ht' hkey a ha => ?_) ih
    exact rest.hands_out ordinary (records.own a ha) t' ht' hkey

theorem of_mem (h : s.Course w turns w') : ∀ t ∈ turns, t.key.Ordinary ∧ s.Records t := by
  induction h with
  | nil => exact fun t ht => absurd ht List.not_mem_nil
  | change _ _ _ ih => exact ih
  | call ordinary _ records _ _ ih => exact List.forall_mem_cons.2 ⟨⟨ordinary, records⟩, ih⟩

/-- The keys of calls that have no record. -/
def missing (s : CodeStore) (fs : Files) (turns : List Turn) : Finset CodeKey :=
  (turns.map Turn.key).toFinset.filter fun key => s.recorded fs key = none

theorem mem_missing {fs : Files} : key ∈ missing s fs turns ↔
    (∃ t ∈ turns, t.key = key) ∧ s.recorded fs key = none := by
  simp [missing]

/-- With fewer calls and more records there is less missing. -/
theorem missing_subset {fs fs' : Files} {turns' : List Turn} (sub : turns ⊆ turns')
    (none_of_none : ∀ t ∈ turns, s.recorded fs t.key = none → s.recorded fs' t.key = none) :
    missing s fs turns ⊆ missing s fs' turns' := by
  intro key hkey
  obtain ⟨⟨t, ht, rfl⟩, hnone⟩ := mem_missing.1 hkey
  exact mem_missing.2 ⟨⟨t, sub ht, rfl⟩, none_of_none t ht hnone⟩

/-- Code is stored at most once for each key without a record. -/
theorem sum_uploads_le (h : s.Course w turns w') :
    (turns.map Turn.uploads).sum ≤ (missing s w.1 turns).card := by
  induction h with
  | nil => exact Nat.zero_le _
  | change same codes rest ih =>
    refine ih.trans (Finset.card_le_card (missing_subset (List.Subset.refl _) ?_))
    intro t ht hnone
    rw [← same t.key (rest.of_mem t ht).1, hnone]
  | @call t turns w' ordinary outcome records codes rest ih =>
    have hsub : missing s t.after.1 turns ⊆ missing s t.before.1 (t :: turns) := by
      refine missing_subset (List.subset_cons_self t turns) fun t' ht' hnone => ?_
      cases had : s.recorded t.before.1 t'.key with
      | none => rfl
      | some a =>
        rw [outcome.recorded_stays records (rest.of_mem t' ht').1 had] at hnone
        cases hnone
    rw [List.map_cons, List.sum_cons]
    rcases outcome.uploads_eq with hzero | ⟨hone, lacked, a, ha⟩
    · rw [hzero, Nat.zero_add]
      exact ih.trans (Finset.card_le_card hsub)
    · -- the key had no record and now has one, so it counts before the call and not after it
      have hbefore : t.key ∈ missing s t.before.1 (t :: turns) :=
        mem_missing.2 ⟨⟨t, List.mem_cons_self, rfl⟩, lacked⟩
      have hafter : t.key ∉ missing s t.after.1 turns := fun hmem => by
        rw [mem_missing, records.own a ha] at hmem
        cases hmem.2
      have hcard := Finset.card_le_card (Finset.insert_subset hbefore hsub)
      rw [Finset.card_insert_of_notMem hafter] at hcard
      omega

/-- The chain knows what is handed out, if it knows what is on record. -/
theorem knows (h : s.Course w turns w') (known : s.Known w) :
    ∀ t ∈ turns, ∀ a, t.result = .ok a → w'.2.Knows a := by
  induction h with
  | nil => exact fun t ht => absurd ht List.not_mem_nil
  | change same codes _ ih =>
    refine ih fun key ordinary a ha => (known key ordinary a ?_).mono codes
    rw [← same key ordinary, ha]
  | @call t turns w' ordinary outcome records codes rest ih =>
    have hknown := outcome.known records codes known
    intro t' ht' a ha
    rcases List.mem_cons.1 ht' with rfl | ht'
    · exact (hknown _ ordinary a (records.own a ha)).mono rest.codes_grow
    · exact ih hknown t' ht' a ha

end Course

/-- If no file of a record is an artifact at first, and files below the root can be written, code
is stored once for each key. What a call hands out every later call for its key hands out, after a
look at the record and nothing else. The chain stores code at most as often as there are keys. A
call that fails changes no record, and a call changes no record of another key. And the chain
goes on to answer for the number of whatever was handed out with its hash. The number of a code is
a word, so a chain has fewer codes than there are words. -/
theorem Calls.stores_once (h : s.Calls w turns w') (unrecorded : s.Unrecorded w.1)
    (countable : w'.2.ledger.codes.length < UInt64.size) :
    (turns.Pairwise fun t t' => t'.key = t.key → ∀ a, t.result = .ok a →
      t'.result = .ok a ∧ t'.asked = [.read (s.cachePath t.key)]) ∧
    (turns.map Turn.uploads).sum ≤ (turns.map Turn.key).toFinset.card ∧
    (∀ t ∈ turns, ∀ fault, t.result = .error fault →
      ∀ key, s.answer t.after key = s.answer t.before key) ∧
    (∀ t ∈ turns, ∀ key, key.Ordinary → key ≠ t.key →
      s.answer t.after key = s.answer t.before key) ∧
    ∀ t ∈ turns, ∀ a, t.result = .ok a → ∀ more v, s.Calls w' more v →
      (Service.codeHash a.codeId).play Chain.partner v.2 = (.ok a.codeHash, v.2) := by
  have hcourse := h.course unrecorded.settled countable
  refine ⟨hcourse.pairwise, hcourse.sum_uploads_le.trans ?_, ?_, ?_, ?_⟩
  · exact Finset.card_le_card (Finset.filter_subset _ _)
  · intro t ht fault hf key
    rw [answer_eq, answer_eq, (hcourse.of_mem t ht).2.ofFailed fault hf]
  · intro t ht key ordinary hne
    rw [answer_eq, answer_eq, (hcourse.of_mem t ht).2.other key ordinary hne]
  · intro t ht a ha more v hmore
    have hknown : s.Known w := by
      intro key ordinary b hb
      rw [unrecorded.settled key ordinary, unrecorded.kept ordinary] at hb
      cases hb
    exact (hcourse.knows hknown t ht a ha).mono hmore.codes_grow

/-! ## A run of calls -/

/-- A store below the working directory. -/
def depot : CodeStore := ⟨"deployed"⟩

/-- A pre-release of the dealer for full nodes. -/
def dealerKey : CodeKey := ⟨"dealer", ⟨"1.0.0-rc.1+7", by decide⟩, "full"⟩

/-- The same for light nodes. -/
def lightKey : CodeKey := { dealerKey with nodeType := "light" }

/-- A build of the dealer, and a broken record of it. -/
def stocked : Files :=
  ⟨[(["work"], .dir), (["work", "dealer.wasm.gz"], .file Chain.dealerWasm),
    (["work", "deployed"], .dir), (["work", "deployed", "dealer"], .dir),
    (["work", "deployed", "dealer", "v1.0.0-rc.1+7"], .dir),
    (["work", "deployed", "dealer", "v1.0.0-rc.1+7", "full.json"], .file [123, 125])], ["work"]⟩

/-- The calls for a key, from a build. -/
def depotTurn (path : String) (key : CodeKey) (w : Files × Chain) : Turn :=
  depot.turn .standard "secret1admin" path key w

/-- A chain that refuses uploads, and then one that takes them. -/
def refusing (c : Chain) (refuses : Bool) : Chain :=
  c.after (.tune 2 refuses false true)

/-- An upload that is refused. -/
def refused : Turn := depotTurn "dealer.wasm.gz" dealerKey (stocked, refusing .start true)

/-- An upload that goes through. -/
def accepted : Turn :=
  depotTurn "dealer.wasm.gz" dealerKey (refused.after.1, refusing refused.after.2 false)

/-- A call for the same key, after the build is gone. -/
def repeated : Turn := depotTurn "gone.wasm.gz" dealerKey accepted.after

/-- A call for another key. -/
def light : Turn := depotTurn "dealer.wasm.gz" lightKey repeated.after

theorem ordinary_dealerKey : dealerKey.Ordinary :=
  ⟨⟨by decide, by decide, by decide, by decide⟩, ⟨by decide, by decide, by decide, by decide⟩⟩

theorem ordinary_lightKey : lightKey.Ordinary :=
  ⟨ordinary_dealerKey.contractName, ⟨by decide, by decide, by decide, by decide⟩⟩

/-- How the calls end, and that the records can be written before each of them. -/
theorem runs_depot :
    (refused.result.toOption = none ∧ accepted.result = .ok ⟨1, Chain.dealerHash⟩ ∧
      light.result = .ok ⟨2, Chain.dealerHash⟩ ∧ light.after.2.ledger.codes.length = 2) ∧
    (stocked.write (depot.cachePath dealerKey) []).isSome = true ∧
    (refused.after.1.write (depot.cachePath dealerKey) []).isSome = true ∧
    (accepted.after.1.write (depot.cachePath dealerKey) []).isSome = true ∧
    (repeated.after.1.write (depot.cachePath lightKey) []).isSome = true := by
  decide +kernel

/-- A call on the depot, before the calls that follow it. -/
theorem calls_depotTurn {path : String} {key : CodeKey} {w w' : Files × Chain}
    {turns : List Turn} (ordinary : key.Ordinary)
    (writable : (w.1.write (depot.cachePath key) []).isSome = true)
    (rest : depot.Calls (depotTurn path key w).after turns w') :
    depot.Calls w (depotTurn path key w :: turns) w' :=
  .call .standard "secret1admin" path ordinary (writable_of_isSome writable) rest

/-- The calls on the depot make a run. -/
theorem calls_depot :
    depot.Calls (stocked, Chain.start) [refused, accepted, repeated, light] light.after := by
  obtain ⟨-, hfirst, hsecond, hthird, hfourth⟩ := runs_depot
  have hlight : depot.Calls repeated.after [light] light.after :=
    calls_depotTurn ordinary_lightKey hfourth .nil
  have hrepeated : depot.Calls accepted.after [repeated, light] light.after :=
    calls_depotTurn ordinary_dealerKey hthird hlight
  have haccepted : depot.Calls (refused.after.1, refusing refused.after.2 false)
      [accepted, repeated, light] light.after :=
    calls_depotTurn ordinary_dealerKey (by dsimp only; exact hsecond) hrepeated
  have hrefused : depot.Calls (stocked, refusing .start true)
      [refused, accepted, repeated, light] light.after :=
    calls_depotTurn ordinary_dealerKey hfirst (.chain _ haccepted)
  exact .chain _ hrefused

/-- At first nothing is on record in the depot. -/
theorem unrecorded_stocked : depot.Unrecorded stocked :=
  unrecorded_of_entries (by decide +kernel)

/-- The first upload is refused, the second goes through, and the call after it needs neither the
build nor the chain. The other key has an upload of its own. -/
theorem depot_stores_once :
    depot.Calls (stocked, Chain.start) [refused, accepted, repeated, light] light.after ∧
    depot.Unrecorded stocked ∧
    accepted.result = .ok ⟨1, Chain.dealerHash⟩ ∧ light.result = .ok ⟨2, Chain.dealerHash⟩ ∧
    repeated.result = accepted.result ∧
    repeated.asked = [.read (depot.cachePath dealerKey)] ∧
    ([refused, accepted, repeated, light].map Turn.uploads).sum ≤ 2 ∧
    depot.answer refused.after dealerKey = depot.answer refused.before dealerKey ∧
    depot.answer light.after dealerKey = depot.answer light.before dealerKey ∧
    (Service.codeHash 1).play Chain.partner light.after.2 =
      (.ok Chain.dealerHash, light.after.2) := by
  obtain ⟨⟨hrefused, haccepted, hlight, hcodes⟩, -⟩ := runs_depot
  have hcountable : light.after.2.ledger.codes.length < UInt64.size := by rw [hcodes]; decide
  obtain ⟨hpairs, hsum, hfailed, hother, hknown⟩ :=
    calls_depot.stores_once unrecorded_stocked hcountable
  have hlater := (List.pairwise_cons.1 (List.pairwise_cons.1 hpairs).2).1
  obtain ⟨hrepeated, hasked⟩ := hlater repeated (by simp) rfl _ haccepted
  refine ⟨calls_depot, unrecorded_stocked, haccepted, hlight, hrepeated.trans haccepted.symm,
    hasked, hsum.trans (by decide +kernel), ?_, ?_, ?_⟩
  · cases hfault : refused.result with
    | error fault => exact hfailed refused (by simp) fault hfault dealerKey
    | ok a => rw [hfault] at hrefused; cases hrefused
  · exact hother light (by simp) dealerKey ordinary_dealerKey (by decide)
  · exact hknown accepted (by simp) _ haccepted [] light.after .nil

end CodeStore

end Handover
