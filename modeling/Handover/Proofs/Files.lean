import Handover.Files
import Handover.Proofs.Text.Path

/-!
# Writing files and reading them

A path that leads anywhere leads to the place that its names spell (`Files.place`). Which places
are directories decides whether it does, and directories that are there stay when a file is put
in place (`Files.Extends`). So a path goes on leading to its place, the file at the written place
is the one that was written, and every other file is as it was (`Files.write_spec`).
-/

namespace Handover

/-- The content of a file. -/
def FileEntry.content? : FileEntry → Option Bytes
  | .file content => some content
  | .dir => none

namespace Files

variable {fs fs' fs'' : Files} {p next : List String} {path name : String}

/-! ## What stands at a place -/

/-- The content of the file at a place. -/
def file? (fs : Files) (place : List String) : Option Bytes :=
  fs.entry? place |>.bind FileEntry.content?

theorem lookup_filter_ne {place : List String} (h : p ≠ place) :
    ∀ entries : List (List String × FileEntry),
      (entries.filter fun old => old.1 != place).lookup p = entries.lookup p
  | [] => rfl
  | (old, e) :: entries => by
    by_cases hold : old = place
    · have hne : (p == old) = false := beq_false_of_ne (hold ▸ h)
      rw [List.filter_cons_of_neg (by simpa using hold), lookup_filter_ne h, List.lookup_cons, hne]
    · rw [List.filter_cons_of_pos (by simpa using hold), List.lookup_cons, List.lookup_cons,
        lookup_filter_ne h]

/-- What is put somewhere stands there, but for the root, which is always a directory. -/
theorem entry?_put (fs : Files) (place : List String) (e : FileEntry) (p : List String) :
    entry? (fs.put place e) p =
      if p = [] then some .dir else if p = place then some e else fs.entry? p := by
  unfold entry?
  by_cases hp : p = []
  · rw [if_pos hp, if_pos hp]
  rw [if_neg hp, if_neg hp, if_neg hp, put]
  by_cases h : p = place
  · subst h
    simp
  · have hbeq : (p == place) = false := beq_false_of_ne h
    rw [List.lookup_cons, hbeq, if_neg h]
    exact lookup_filter_ne h fs.entries

/-- A file that is put somewhere is there, and every other file is as it was. -/
theorem file?_put (fs : Files) {place : List String} (hplace : place ≠ []) (e : FileEntry)
    (p : List String) :
    (fs.put place e).file? p = if p = place then e.content? else fs.file? p := by
  rw [file?, entry?_put, file?]
  by_cases hp : p = place
  · rw [if_neg (hp ▸ hplace), if_pos hp, if_pos hp, Option.bind_some]
  · rw [if_neg hp, if_neg hp]
    by_cases hnil : p = []
    · rw [if_pos hnil, entry?, if_pos hnil]
    · rw [if_neg hnil]

theorem isDir_iff : fs.isDir p = true ↔ fs.entry? p = some .dir := by
  rw [isDir, beq_iff_eq]

/-! ## Places -/

/-- The place that one name further leads to, if it leads anywhere. -/
def ahead (place : List String) (name : String) : List String :=
  if name = "" ∨ name = "." then place
  else if name = ".." then place.dropLast
  else place ++ [name]

theorem ahead_of_ordinary (h : Path.Ordinary name) (p : List String) :
    ahead p name = p ++ [name] := by
  rw [ahead, if_neg (not_or.2 ⟨h.ne_empty, h.ne_dot⟩), if_neg h.ne_dots]

/-- The place that the names of a path spell. -/
def place (fs : Files) (path : String) : List String :=
  (Path.names path).foldl ahead (fs.origin path)

/-- A name leads on from directories only, to the place that it spells. -/
theorem step_eq_some (h : fs.step p name = some next) :
    fs.isDir p = true ∧ next = ahead p name := by
  unfold step at h
  unfold ahead
  split at h
  · cases h
  · next hd =>
    refine ⟨by simpa using hd, ?_⟩
    split at h
    · next hname => rw [if_pos hname]; exact (Option.some.inj h).symm
    · next hname =>
      rw [if_neg hname]
      split at h
      · next hdots => rw [if_pos hdots]; exact (Option.some.inj h).symm
      · next hdots =>
        rw [if_neg hdots]
        split at h
        · exact (Option.some.inj h).symm
        · cases h

/-- Where names lead to is the place that they spell. -/
theorem eq_of_foldlM_step {q : List String} : ∀ {names : List String} {p : List String},
    names.foldlM fs.step p = some q → q = names.foldl ahead p
  | [], _, h => (Option.some.inj h).symm
  | name :: names, p, h => by
    rw [List.foldlM_cons] at h
    obtain ⟨next, hnext, hrest⟩ := Option.bind_eq_some_iff.1 h
    rw [eq_of_foldlM_step hrest, (step_eq_some hnext).2]
    rfl

/-- A path leads to its place, if it leads anywhere. -/
theorem eq_of_resolve {q : List String} (h : fs.resolve path = some q) : q = fs.place path :=
  eq_of_foldlM_step h

/-- A file is read exactly if its path leads to its place and the file stands there. -/
theorem read_eq_some {content : Bytes} : fs.read path = some content ↔
    fs.resolve path = some (fs.place path) ∧ fs.file? (fs.place path) = some content := by
  have hread : fs.read path = (fs.resolve path).bind fs.file? := by
    unfold read file?
    cases fs.resolve path with
    | none => rfl
    | some q =>
      rw [Option.bind_some, Option.bind_some]
      rcases fs.entry? q with - | - | content <;> rfl
  rw [hread]
  constructor
  · intro h
    obtain ⟨q, hq, hfile⟩ := Option.bind_eq_some_iff.1 h
    rw [← eq_of_resolve hq]
    exact ⟨hq, hfile⟩
  · rintro ⟨hq, hfile⟩
    rw [hq, Option.bind_some, hfile]

/-- A name below a path spells the place below. -/
theorem place_join {base : String} (h : Path.Ordinary name) (fs : Files) :
    fs.place (Path.join base name) = fs.place base ++ [name] := by
  obtain ⟨front, hnames, hbase⟩ := Path.exists_names_join h base
  have horigin : fs.origin (Path.join base name) = fs.origin base := by
    rw [origin, origin, Path.isAbsolute_join h]
  have hfront : (Path.names base).foldl ahead (fs.origin base) =
      front.foldl ahead (fs.origin base) := by
    rcases hbase with hbase | hbase
    · rw [hbase]
    · rw [hbase, List.foldl_append]
      rfl
  rw [place, place, hnames, horigin, hfront, List.foldl_append, List.foldl_cons, List.foldl_nil,
    ahead_of_ordinary h]

/-! ## More directories -/

/-- The directories of the first tree are directories of the second. -/
structure Extends (fs fs' : Files) : Prop where
  workingDir : fs'.workingDir = fs.workingDir
  isDir : ∀ p, fs.isDir p = true → fs'.isDir p = true

namespace Extends

theorem refl (fs : Files) : Extends fs fs := ⟨rfl, fun _ h => h⟩

theorem trans (h : Extends fs fs') (h' : Extends fs' fs'') : Extends fs fs'' :=
  ⟨h'.workingDir.trans h.workingDir, fun p hp => h'.isDir p (h.isDir p hp)⟩

/-- What is put where there is no directory leaves the directories. -/
theorem put {e : FileEntry} (free : fs.entry? p ≠ some .dir) : Extends fs (fs.put p e) where
  workingDir := rfl
  isDir q hq := by
    rw [isDir_iff] at hq ⊢
    rw [entry?_put]
    have hne : q ≠ p := fun heq => free (heq ▸ hq)
    by_cases hnil : q = []
    · rw [if_pos hnil]
    · rw [if_neg hnil, if_neg hne, hq]

theorem origin (h : Extends fs fs') (path : String) : fs'.origin path = fs.origin path := by
  rw [Files.origin, Files.origin, h.workingDir]

theorem place (h : Extends fs fs') (path : String) : fs'.place path = fs.place path := by
  rw [Files.place, Files.place, h.origin]

/-- Every name leads on to where it did. -/
theorem step (h : Extends fs fs') (hs : fs.step p name = some next) :
    fs'.step p name = some next := by
  have hd := (step_eq_some hs).1
  unfold Files.step at hs ⊢
  rw [hd] at hs
  rwa [h.isDir p hd]

theorem foldlM_step (h : Extends fs fs') {q : List String} :
    ∀ {names : List String} {p : List String}, names.foldlM fs.step p = some q →
      names.foldlM fs'.step p = some q
  | [], _, hq => hq
  | name :: names, p, hq => by
    rw [List.foldlM_cons] at hq ⊢
    obtain ⟨next, hnext, hrest⟩ := Option.bind_eq_some_iff.1 hq
    rw [h.step hnext]
    exact h.foldlM_step hrest

/-- A path leads on to its place. -/
theorem resolve (h : Extends fs fs') {q : List String} (hq : fs.resolve path = some q) :
    fs'.resolve path = some q := by
  rw [Files.resolve, h.origin]
  exact h.foldlM_step hq

end Extends

/-! ## Making directories -/

/-- What the directories on a way are made to. -/
structure MadeDirs (fs : Files) (p names : List String) (fs' : Files) (q : List String) : Prop where
  isExtension : Extends fs fs'
  file?_eq : ∀ p, fs'.file? p = fs.file? p
  leads : names.foldlM fs'.step p = some q
  isDir : fs'.isDir q = true

/-- Directories that are made lead on, and no file changes. -/
theorem makeDirs_spec {q : List String} : ∀ {names : List String} {fs : Files} {p : List String},
    fs.makeDirs p names = some (fs', q) → MadeDirs fs p names fs' q
  | [], fs, _, h => by
    rw [makeDirs] at h
    split at h
    · next hd =>
      cases h
      exact ⟨.refl _, fun _ => rfl, rfl, hd⟩
    · cases h
  | name :: names, fs, p, h => by
    rw [makeDirs] at h
    cases hs : fs.step p name with
    | none => simp [hs] at h
    | some next =>
      simp only [hs] at h
      cases he : fs.entry? next with
      | none =>
        simp only [he] at h
        have hput : Extends fs (fs.put next .dir) := .put (by simp [he])
        obtain ⟨hext, hfile, hleads, hdir⟩ := makeDirs_spec h
        have hnil : next ≠ [] := by
          rintro rfl
          unfold entry? at he
          simp at he
        refine ⟨hput.trans hext, fun p => ?_, ?_, hdir⟩
        · rw [hfile, file?_put fs hnil]
          by_cases heq : p = next
          · rw [if_pos heq, heq, file?, he]
            rfl
          · rw [if_neg heq]
        · rw [List.foldlM_cons, (hput.trans hext).step hs]
          exact hleads
      | some e =>
        cases e with
        | file content => simp [he] at h
        | dir =>
          simp only [he] at h
          obtain ⟨hext, hfile, hleads, hdir⟩ := makeDirs_spec h
          refine ⟨hext, hfile, ?_, hdir⟩
          rw [List.foldlM_cons, hext.step hs]
          exact hleads

/-! ## Writing -/

/-- A way to a directory starts from one. -/
theorem isDir_of_foldlM_step {q : List String} (hq : fs.isDir q = true) :
    ∀ {names : List String} {p : List String}, names.foldlM fs.step p = some q →
      fs.isDir p = true
  | [], _, h => Option.some.inj h ▸ hq
  | name :: names, p, h => by
    rw [List.foldlM_cons] at h
    obtain ⟨next, hnext, -⟩ := Option.bind_eq_some_iff.1 h
    exact (step_eq_some hnext).1

/-- Whether a name leads anywhere else than where it stands. -/
def isMove (name : String) : Bool :=
  name != "" && name != "."

theorem step_of_not_isMove (hd : fs.isDir p = true) (h : isMove name = false) :
    fs.step p name = some p := by
  have hname : name = "" ∨ name = "." := by
    by_cases hempty : name = ""
    · exact Or.inl hempty
    · exact Or.inr (by simpa [isMove, hempty] using h)
  simp [step, hd, hname]

/-- Names that stay where they stand may be left out on the way to a directory. -/
theorem foldlM_step_of_filter {q : List String} (hq : fs.isDir q = true) :
    ∀ {names : List String} {p : List String},
      (names.filter isMove).foldlM fs.step p = some q → names.foldlM fs.step p = some q
  | [], _, h => h
  | name :: names, p, h => by
    by_cases hname : isMove name = true
    · rw [List.filter_cons_of_pos hname, List.foldlM_cons] at h
      rw [List.foldlM_cons]
      obtain ⟨next, hnext, hrest⟩ := Option.bind_eq_some_iff.1 h
      rw [hnext]
      exact foldlM_step_of_filter hq hrest
    · rw [List.filter_cons_of_neg hname] at h
      have hd := isDir_of_foldlM_step hq h
      rw [List.foldlM_cons, step_of_not_isMove hd (by simpa using hname)]
      exact foldlM_step_of_filter hq h

/-- What a written file leads to. -/
structure Written (fs : Files) (path : String) (content : Bytes) (fs' : Files) : Prop where
  isExtension : Extends fs fs'
  file?_eq : ∀ p, fs'.file? p = if p = fs.place path then some content else fs.file? p
  leads : fs'.resolve path = some (fs.place path)

/-- A file that is written stands at the place of its path, and no other file changes. -/
theorem write_spec {front : List String} {content : Bytes}
    (hnames : Path.names path = front ++ [name]) (hname : Path.Ordinary name)
    (h : fs.write path content = some fs') : Written fs path content fs' := by
  have hmove : isMove name = true := by simp [isMove, hname.ne_empty, hname.ne_dot]
  have hfilter : (Path.names path).filter isMove = front.filter isMove ++ [name] := by
    rw [hnames, List.filter_append, List.filter_cons_of_pos hmove, List.filter_nil]
  have hmoves : ((Path.names path).filter fun name => name != "" && name != ".") =
      front.filter isMove ++ [name] := hfilter
  simp only [write, hmoves, List.getLast?_concat, List.dropLast_concat] at h
  split at h
  · cases h
  · next hn =>
    have hisName : isName name = true := by simpa [hname.ne_dots] using hn
    cases hm : fs.makeDirs (fs.origin path) (front.filter isMove) with
    | none => simp [hm] at h
    | some r =>
      obtain ⟨made, parent⟩ := r
      simp only [hm] at h
      split at h
      · cases h
      · next hfree =>
        obtain rfl := Option.some.inj h
        obtain ⟨hext, hfile, hleads, hdir⟩ := makeDirs_spec hm
        have hput : Extends made (made.put (parent ++ [name]) (.file content)) :=
          .put (fun he => hfree (isDir_iff.2 he))
        have hparent := hput.foldlM_step (foldlM_step_of_filter hdir hleads)
        have hstep : (made.put (parent ++ [name]) (.file content)).step parent name =
            some (parent ++ [name]) := by
          simp [step, hput.isDir parent hdir, hname.ne_empty, hname.ne_dot, hname.ne_dots,
            hisName]
        have hresolve : (made.put (parent ++ [name]) (.file content)).resolve path =
            some (parent ++ [name]) := by
          rw [resolve, (hext.trans hput).origin, hnames, List.foldlM_append, hparent]
          simp [hstep]
        have hplace : fs.place path = parent ++ [name] := by
          rw [eq_of_resolve hresolve, (hext.trans hput).place]
        refine ⟨hext.trans hput, fun p => ?_, hplace ▸ hresolve⟩
        rw [hplace, file?_put made (by simp), hfile]
        rfl

/-- Whether a file can be written does not depend on its content. -/
theorem isSome_write (fs : Files) (path : String) (content content' : Bytes) :
    (fs.write path content).isSome = (fs.write path content').isSome := by
  unfold write
  dsimp only
  split
  · rfl
  split
  · rfl
  split
  · rfl
  split <;> rfl

end Files

end Handover
