import Handover.Proofs.Code.Records
import Handover.Proofs.Code.Upload

/-!
# One call of the code store

A call for a key ends in one of three ways (`CodeStore.Outcome`). What is recorded is handed out,
after a look at the record and nothing else. Or nothing is recorded, and the call fails with the
records as they were, or it uploads the code and records it. Which of the three it is can be told
from what is recorded before, if files below the root can be written.
-/

namespace Handover

/-! ## Programs on files and a chain -/

namespace Program

variable {α β : Type} {fs : Files} {w w' : Files × Chain}

/-- Played with the files and the chain, the program ends so and leaves them so. -/
def Ends (p : Program α) (w : Files × Chain) (r : Except Fault α) (w' : Files × Chain) : Prop :=
  p.run.play (Files.partner Chain.partner) w = (r, w')

/-- A program fails with its first part, or goes on after it. -/
theorem Ends.of_bind {p : Program α} {f : α → Program β} {r : Except Fault β}
    (h : (p >>= f).Ends w r w') : (∃ fault, p.Ends w (.error fault) w' ∧ r = .error fault) ∨
      ∃ a v, p.Ends w (.ok a) v ∧ (f a).Ends v r w' := by
  have hplay := Dialogue.play_bind (Files.partner Chain.partner) (ExceptT.bindCont f) p.run w
  have h' := hplay.symm.trans h
  rcases hp : p.run.play (Files.partner Chain.partner) w with ⟨fault | a, v⟩
  · rw [hp] at h'
    cases h'
    exact Or.inl ⟨fault, hp, rfl⟩
  · rw [hp] at h'
    exact Or.inr ⟨a, v, hp, h'⟩

/-- A program ends in one way only. -/
theorem Ends.unique {p : Program α} {r r' : Except Fault α} {v v' : Files × Chain}
    (h : p.Ends w r v) (h' : p.Ends w r' v') : r = r' ∧ v = v' :=
  Prod.mk.inj (h.symm.trans h')

/-- A dialogue with the service leaves the files. -/
theorem play_ofService {σ : Type} (p : Partner service σ) (fs : Files) :
    ∀ (d : ServiceDialogue α) (s : σ),
      (Host.ofService d).play (Files.partner p) (fs, s) = ((d.play p s).1, fs, (d.play p s).2)
  | .done _, _ => rfl
  | .ask q next, s => play_ofService p fs (next (p q s).1) (p q s).2

/-- Whatever a program does, no code is taken from the chain. -/
theorem codes_play : ∀ (d : Dialogue host α) (w : Files × Chain),
    w.2.ledger.codes <+: (d.play (Files.partner Chain.partner) w).2.2.ledger.codes
  | .done _, _ => List.prefix_refl _
  | .ask q next, (fs, c) => by
    have hfirst : c.ledger.codes <+: (Files.partner Chain.partner q (fs, c)).2.2.ledger.codes := by
      cases q with
      | service call => exact c.codes_partner call
      | connect | isPresent | isFile | read => exact List.prefix_refl _
      | write path content =>
        rw [Files.partner]
        cases fs.write path content <;> exact List.prefix_refl _
    exact hfirst.trans (codes_play (next _) _)

/-- No program takes stored code away. -/
theorem Ends.codes_grow {p : Program α} {r : Except Fault α} (h : p.Ends w r w') :
    w.2.ledger.codes <+: w'.2.ledger.codes := by
  have hcodes := codes_play p.run w
  rwa [h] at hcodes

end Program

/-! ## Uploads of files -/

/-- The content of a file, if it is a build. -/
def readBuild (path : String) : Program Bytes := do
  match ← (Host.read path : Dialogue host _) with
  | none => throw .io
  | some content =>
    let _ ← validateArtifact path content
    return content

/-- Reading a build changes nothing. -/
theorem ends_readBuild (path : String) (fs : Files) (c : Chain) :
    ∃ r, (readBuild path).Ends (fs, c) r (fs, c) := by
  change ∃ r, Dialogue.play (Files.partner Chain.partner) (match fs.read path with
      | none => throw .io
      | some content => do
        let _ ← validateArtifact path content
        return content : Program Bytes) (fs, c) = (r, fs, c)
  cases fs.read path with
  | none => exact ⟨_, rfl⟩
  | some content =>
    dsimp only
    cases validateArtifact path content with
    | error fault => exact ⟨_, rfl⟩
    | ok valid => exact ⟨_, rfl⟩

/-- Reading a build changes nothing. -/
theorem ends_readArtifact (path : String) (w : Files × Chain) :
    ∃ r, (readArtifact path).Ends w r w := by
  obtain ⟨fs, c⟩ := w
  have hcheck : ∀ r, (if !fs.isFile path then throw (.artifactNotFound path)
      else readBuild path : Program Bytes).Ends (fs, c) r (fs, c) →
        (readArtifact path).Ends (fs, c) r (fs, c) := fun _ h => h
  cases hfile : fs.isFile path with
  | false => exact ⟨_, hcheck _ (by rw [hfile]; rfl)⟩
  | true =>
    obtain ⟨r, hr⟩ := ends_readBuild path fs c
    exact ⟨r, hcheck r (by rw [hfile]; exact hr)⟩

/-- An upload leaves the files. It fails with nothing stored, or stores what it ends with. -/
theorem ends_storeCode {g : GasSettings} {uploader : String} {wasm : Bytes} {fs : Files}
    {c : Chain} {r : Except Fault CodeArtifact} {w' : Files × Chain}
    (h : (storeCode g uploader wasm).onHost.Ends (fs, c) r w')
    (fits : w'.2.ledger.codes.length < UInt64.size) :
    w'.1 = fs ∧ ((∃ fault, r = .error fault ∧ w'.2.uploads = c.uploads) ∨
      ∃ a, r = .ok a ∧ c.Uploaded a w'.2) := by
  have hplay := (Program.play_ofService Chain.partner fs (storeCode g uploader wasm).run c).symm.trans h
  obtain ⟨rfl, rfl⟩ := Prod.mk.inj hplay
  refine ⟨rfl, ?_⟩
  rcases play_storeCode rfl fits with ⟨fault, hr, -, hup⟩ | ⟨a, hr, hup⟩
  · exact Or.inl ⟨fault, hr, hup⟩
  · exact Or.inr ⟨a, hr, hup⟩

namespace CodeStore

variable {s : CodeStore} {fs : Files} {c : Chain} {key : CodeKey}

/-- An upload that is then recorded. -/
def storeNew (s : CodeStore) (g : GasSettings) (uploader path : String) (key : CodeKey) :
    Program CodeArtifact := do
  let wasm ← readArtifact path
  let artifact ← (storeCode g uploader wasm).onHost
  s.record key artifact
  return artifact

/-- A call reads the record, and hands it out or uploads. -/
theorem run_getOrStoreCode (s : CodeStore) (g : GasSettings) (uploader path : String)
    (key : CodeKey) : (s.getOrStoreCode g uploader path key).run =
      .ask (I := host) (.read (s.cachePath key)) fun content : Option Bytes =>
        match content.bind CodeArtifact.ofFile? with
        | some a => .done (.ok a)
        | none => (s.storeNew g uploader path key).run :=
  rfl

/-- The file of a key can be written. -/
def Writable (s : CodeStore) (fs : Files) (key : CodeKey) : Prop :=
  ∀ content, (fs.write (s.cachePath key) content).isSome = true

theorem writable_of_isSome (h : (fs.write (s.cachePath key) []).isSome = true) :
    s.Writable fs key := fun content => by rw [fs.isSome_write _ content [], h]

/-- A record that can be written is written, and the chain is left as it is. -/
theorem ends_record {a : CodeArtifact} {r : Except Fault Unit} {w' : Files × Chain}
    (h : (s.record key a).Ends (fs, c) r w') (writable : s.Writable fs key) :
    r = .ok () ∧ w'.2 = c ∧
      fs.write (s.cachePath key) (Utf8.encode a.fileText) = some w'.1 := by
  obtain ⟨fs', hw⟩ := Option.isSome_iff_exists.1 (writable (Utf8.encode a.fileText))
  have hpartner : Files.partner Chain.partner (.write (s.cachePath key) (Utf8.encode a.fileText))
      (fs, c) = (true, fs', c) := by
    simp only [Files.partner, hw]
    rfl
  have hends : (s.record key a).Ends (fs, c) (.ok ()) (fs', c) := by
    change Dialogue.play _ (Dialogue.bind (.ask (I := host) _ .done) _) _ = _
    rw [Dialogue.play_bind]
    simp only [Dialogue.play, hpartner]
    rfl
  obtain ⟨rfl, rfl⟩ := h.unique hends
  exact ⟨rfl, rfl, hw⟩

/-- An upload fails with nothing changed in the files, or is recorded. -/
theorem ends_storeNew {g : GasSettings} {uploader path : String} {r : Except Fault CodeArtifact}
    {w' : Files × Chain} (h : (s.storeNew g uploader path key).Ends (fs, c) r w')
    (writable : s.Writable fs key) (fits : w'.2.ledger.codes.length < UInt64.size) :
    (∃ fault, r = .error fault ∧ w'.1 = fs ∧ w'.2.uploads = c.uploads) ∨
      ∃ a, r = .ok a ∧ c.Uploaded a w'.2 ∧
        fs.write (s.cachePath key) (Utf8.encode a.fileText) = some w'.1 := by
  obtain ⟨r₁, hread⟩ := ends_readArtifact path (fs, c)
  rcases Program.Ends.of_bind h with ⟨fault, hfail, rfl⟩ | ⟨wasm, v, hok, hupload⟩
  · obtain ⟨-, rfl⟩ := hfail.unique hread
    exact Or.inl ⟨fault, rfl, rfl, rfl⟩
  obtain ⟨-, rfl⟩ := hok.unique hread
  rcases Program.Ends.of_bind hupload with ⟨fault, hfail, rfl⟩ | ⟨a, ⟨fs₁, c₁⟩, hok, hrecord⟩
  · obtain ⟨hfiles, ⟨_, -, hup⟩ | ⟨a, ha, -⟩⟩ := ends_storeCode hfail fits
    · exact Or.inl ⟨fault, rfl, hfiles, hup⟩
    · cases ha
  have hlength := hrecord.codes_grow.length_le
  obtain ⟨hfiles, ⟨fault, hfault, -⟩ | ⟨a', ha, hup⟩⟩ := ends_storeCode hok (by omega)
  · cases hfault
  obtain rfl : fs₁ = fs := hfiles
  obtain rfl := Except.ok.inj ha
  rcases Program.Ends.of_bind hrecord with ⟨fault, hfail, -⟩ | ⟨u, v, hok, hpure⟩
  · exact absurd (ends_record hfail writable).1 nofun
  · obtain ⟨-, hchain, hw⟩ := ends_record hok writable
    obtain ⟨rfl, rfl⟩ := Prod.mk.inj hpure
    exact Or.inr ⟨a, rfl, hchain ▸ hup, hw⟩

end CodeStore

/-! ## Calls -/

/-- A call of the store that was made: its key, the files and the chain before and after, how it
ended and what it asked. -/
structure Turn where
  key : CodeKey
  before : Files × Chain
  after : Files × Chain
  result : Except Fault CodeArtifact
  asked : List HostCall

/-- How often the chain stored code in the call. -/
def Turn.uploads (t : Turn) : Nat :=
  t.after.2.uploads - t.before.2.uploads

namespace CodeStore

/-- A call for a key, made with these files and this chain. -/
def turn (s : CodeStore) (g : GasSettings) (uploader path : String) (key : CodeKey)
    (w : Files × Chain) : Turn :=
  let t := (s.getOrStoreCode g uploader path key).run.trace (Files.partner Chain.partner) w
  ⟨key, w, t.2.1, t.1, t.2.2⟩

/-- The ways in which a call ends. -/
inductive Outcome (s : CodeStore) (t : Turn) : Prop
  | found (a : CodeArtifact) (had : s.recorded t.before.1 t.key = some a)
      (result : t.result = .ok a) (same : t.after = t.before)
      (asked : t.asked = [.read (s.cachePath t.key)])
  | failed (fault : Fault) (lacked : s.recorded t.before.1 t.key = none)
      (result : t.result = .error fault) (files : t.after.1 = t.before.1)
      (uploads : t.after.2.uploads = t.before.2.uploads)
  | stored (a : CodeArtifact) (lacked : s.recorded t.before.1 t.key = none)
      (result : t.result = .ok a) (uploaded : t.before.2.Uploaded a t.after.2)
      (written : t.before.1.write (s.cachePath t.key) (Utf8.encode a.fileText) = some t.after.1)

variable {s : CodeStore} {g : GasSettings} {uploader path : String} {key : CodeKey}
  {w : Files × Chain}

@[simp] theorem key_turn : (s.turn g uploader path key w).key = key := rfl

@[simp] theorem before_turn : (s.turn g uploader path key w).before = w := rfl

/-- What is played in a call. -/
theorem ends_turn : (s.getOrStoreCode g uploader path key).Ends w
    (s.turn g uploader path key w).result (s.turn g uploader path key w).after := by
  rw [Program.Ends, Dialogue.play_eq_trace, turn]

/-- A record that is found is handed out, after a look at it. -/
theorem turn_of_recorded {a : CodeArtifact} (h : s.recorded w.1 key = some a) :
    s.turn g uploader path key w = ⟨key, w, w, .ok a, [.read (s.cachePath key)]⟩ := by
  obtain ⟨fs, c⟩ := w
  have hfound : (fs.read (s.cachePath key)).bind CodeArtifact.ofFile? = some a := h
  simp only [turn, run_getOrStoreCode, Dialogue.trace, Dialogue.record, Files.partner]
  rw [hfound]
  rfl

/-- Without a record, a call uploads. -/
theorem ends_storeNew_of_turn (g : GasSettings) (uploader path : String)
    (h : s.recorded w.1 key = none) : (s.storeNew g uploader path key).Ends w
      (s.turn g uploader path key w).result (s.turn g uploader path key w).after := by
  obtain ⟨fs, c⟩ := w
  have hends : (s.getOrStoreCode g uploader path key).Ends (fs, c)
      (s.turn g uploader path key (fs, c)).result (s.turn g uploader path key (fs, c)).after :=
    ends_turn
  generalize s.turn g uploader path key (fs, c) = t at hends ⊢
  rw [Program.Ends, run_getOrStoreCode] at hends
  change Dialogue.play (Files.partner Chain.partner) (match s.recorded fs key with
    | some a => .done (.ok a)
    | none => (s.storeNew g uploader path key).run) (fs, c) = (t.result, t.after) at hends
  rwa [h] at hends

/-- A call ends in one of the three ways. -/
theorem outcome_turn (g : GasSettings) (uploader path : String) (writable : s.Writable w.1 key)
    (fits : (s.turn g uploader path key w).after.2.ledger.codes.length < UInt64.size) :
    s.Outcome (s.turn g uploader path key w) := by
  cases hrecorded : s.recorded w.1 key with
  | some a =>
    rw [turn_of_recorded hrecorded]
    exact .found a hrecorded rfl rfl rfl
  | none =>
    have hends := ends_storeNew_of_turn g uploader path hrecorded
    have hkey : (s.turn g uploader path key w).key = key := key_turn
    have hbefore : (s.turn g uploader path key w).before = w := before_turn
    generalize s.turn g uploader path key w = t at hends hkey hbefore fits ⊢
    subst hkey hbefore
    rcases ends_storeNew hends writable fits with ⟨fault, hr, hfiles, hup⟩ | ⟨a, hr, hup, hw⟩
    · exact .failed fault hrecorded hr hfiles hup
    · exact .stored a hrecorded hr hup hw

end CodeStore

end Handover
