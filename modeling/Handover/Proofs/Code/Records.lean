import Handover.Code.Store
import Handover.Proofs.Files
import Handover.Proofs.Json.ReadBack

/-!
# Records of stored code

A record is read as the artifact that was written (`CodeArtifact.ofFile?_fileText`), and each key
has a place of its own (`CodeStore.place_cachePath_inj`). So what is recorded for a key is what
was recorded last for it, and nothing else changes what is recorded for it
(`CodeStore.Settled.write`).

A root may lead through directories that are not there yet, and making them can uncover a file.
So the statement is for files of which the store finds every record (`CodeStore.Settled`), as it
does where none of them is an artifact.
-/

namespace Handover

/-! ## The text of a record -/

namespace CodeArtifact

/-- The artifact in the bytes of a file. -/
def ofFile? (content : Bytes) : Option CodeArtifact :=
  (Json.readBytes content).bind ofJson?

/-- An artifact is read back from its written form. -/
theorem ofJson?_toJson (a : CodeArtifact) : ofJson? a.toJson = some a := by
  rfl

/-- What was written is read. -/
theorem ofFile?_fileText (a : CodeArtifact) : ofFile? (Utf8.encode a.fileText) = some a := by
  have hexact : Json.exactWithin Json.depthLimit a.toJson = true := rfl
  rw [ofFile?, Json.readBytes_encode, fileText, Json.read_pretty hexact, Option.bind_some,
    ofJson?_toJson]

end CodeArtifact

/-! ## The places of records -/

namespace Version

theorem slash_notMem_numeral : ∀ {cs : List Char}, isNumeral cs = true → '/' ∉ cs := by
  intro cs h
  unfold isNumeral at h
  split at h
  · cases h
  · decide
  · cases h
  · intro hmem
    exact absurd (List.all_eq_true.1 h '/' hmem) (by decide)

/-- No identifier in a version holds a slash. -/
theorem slash_notMem_identifier {cs : List Char} (h : isIdentifier cs = true) : '/' ∉ cs := by
  intro hmem
  have hall : cs.all isIdentifierChar = true := (Bool.and_eq_true_iff.1 h).2
  exact absurd (List.all_eq_true.1 hall '/' hmem) (by decide)

theorem slash_notMem_parts {isPart : List Char → Bool}
    (hpart : ∀ cs, isPart cs = true → '/' ∉ cs) {cs : List Char}
    (h : (Text.splitChars '.' cs).all isPart = true) : '/' ∉ cs := by
  intro hmem
  obtain ⟨part, hin, hslash⟩ := Text.exists_mem_splitChars (show '/' ≠ '.' by decide) hmem
  exact hpart part (List.all_eq_true.1 h part hin) hslash

theorem slash_notMem_tail {isPart : List Char → Bool}
    (hpart : ∀ cs, isPart cs = true → '/' ∉ cs) {mark : Char} (hmark : mark ≠ '/') {cs : List Char}
    (h : isTail isPart (cs.dropWhile (· != mark)) = true) : '/' ∉ cs.dropWhile (· != mark) := by
  cases hd : cs.dropWhile (· != mark) with
  | nil => exact List.not_mem_nil
  | cons c rest =>
    have hhead := List.head_dropWhile_not (· != mark) (l := cs) (by simp [hd])
    obtain rfl : c = mark := by simpa [hd] using hhead
    rw [hd] at h
    rw [List.mem_cons, not_or]
    exact ⟨hmark.symm, slash_notMem_parts hpart h⟩

/-- The text of a version has no slash. -/
theorem slash_notMem (v : Version) : '/' ∉ v.text.toList := by
  have h := v.wellFormed
  simp only [isVersion, isCore, Bool.and_eq_true] at h
  obtain ⟨⟨⟨-, hcore⟩, hpre⟩, hbuild⟩ := h
  have hnumber : ∀ cs, isNumber cs = true → '/' ∉ cs := fun cs hcs =>
    slash_notMem_numeral (Bool.and_eq_true_iff.1 hcs).1
  have hpreIdentifier : ∀ cs, isPreIdentifier cs = true → '/' ∉ cs := fun cs hcs =>
    slash_notMem_identifier (Bool.and_eq_true_iff.1 hcs).1
  rw [← List.takeWhile_append_dropWhile (p := (· != '+')) (l := v.text.toList), List.mem_append,
    not_or, ← List.takeWhile_append_dropWhile (p := (· != '-'))
      (l := v.text.toList.takeWhile (· != '+')), List.mem_append, not_or]
  exact ⟨⟨slash_notMem_parts hnumber hcore, slash_notMem_tail hpreIdentifier (by decide) hpre⟩,
    slash_notMem_tail (fun _ => slash_notMem_identifier) (by decide) hbuild⟩

end Version

/-- A name with something before it is no dots. -/
theorem Path.Ordinary.of_append {front name : String} (hslash : '/' ∉ (front ++ name).toList)
    {c : Char} (hc : c ∈ (front ++ name).toList) (hdot : c ≠ '.') :
    Path.Ordinary (front ++ name) where
  ne_empty h := by simp [h] at hc
  ne_dot h := hdot (by simpa [h] using hc)
  ne_dots h := hdot (by simpa [h] using hc)
  no_slash := hslash

namespace CodeKey

/-- The name of the contract and the type of the node are names in a path. -/
structure Ordinary (key : CodeKey) : Prop where
  contractName : Path.Ordinary key.contractName
  nodeType : Path.Ordinary key.nodeType

variable {key key' : CodeKey}

/-- The directory of a version has an ordinary name. -/
theorem ordinary_version (key : CodeKey) : Path.Ordinary ("v" ++ key.version.text) :=
  .of_append (c := 'v') (by simpa [String.toList_append] using key.version.slash_notMem)
    (by simp [String.toList_append]) (by decide)

theorem Ordinary.fileName (h : key.Ordinary) : Path.Ordinary (key.nodeType ++ ".json") :=
  .of_append (c := 'j') (by simpa [String.toList_append] using h.nodeType.no_slash)
    (by simp [String.toList_append]) (by decide)

end CodeKey

namespace CodeStore

variable {s : CodeStore} {fs fs' : Files} {key key' : CodeKey}

/-- Where the record of a key stands. -/
theorem place_cachePath (s : CodeStore) (fs : Files) (h : key.Ordinary) :
    fs.place (s.cachePath key) = fs.place s.root ++
      [key.contractName, "v" ++ key.version.text, key.nodeType ++ ".json"] := by
  rw [cachePath, Files.place_join h.fileName, Files.place_join key.ordinary_version,
    Files.place_join h.contractName]
  simp

/-- Each key has a place of its own. -/
theorem place_cachePath_inj (h : key.Ordinary) (h' : key'.Ordinary)
    (hplace : fs.place (s.cachePath key) = fs.place (s.cachePath key')) : key = key' := by
  rw [s.place_cachePath fs h, s.place_cachePath fs h', List.append_cancel_left_eq] at hplace
  obtain ⟨contractName, ⟨version, wellFormed⟩, nodeType⟩ := key
  obtain ⟨contractName', ⟨version', wellFormed'⟩, nodeType'⟩ := key'
  simp only [List.cons.injEq, and_true, String.append_right_inj, String.append_left_inj] at hplace
  obtain ⟨rfl, rfl, rfl⟩ := hplace
  rfl

/-! ## What is recorded -/

/-- The artifact that the store finds for a key. -/
def recorded (s : CodeStore) (fs : Files) (key : CodeKey) : Option CodeArtifact :=
  (fs.read (s.cachePath key)).bind CodeArtifact.ofFile?

/-- The artifact in the file at the place of a key. -/
def kept (s : CodeStore) (fs : Files) (key : CodeKey) : Option CodeArtifact :=
  (fs.file? (fs.place (s.cachePath key))).bind CodeArtifact.ofFile?

/-- Every record that is kept is found. -/
def Settled (s : CodeStore) (fs : Files) : Prop :=
  ∀ key, key.Ordinary → s.recorded fs key = s.kept fs key

/-- No file of a record is an artifact. -/
def Unrecorded (s : CodeStore) (fs : Files) : Prop :=
  ∀ key, key.Ordinary → ∀ content, fs.file? (fs.place (s.cachePath key)) = some content →
    CodeArtifact.ofFile? content = none

/-- Nothing changes for the records : neither what is read of them nor what stands in their
places. -/
structure Undisturbed (s : CodeStore) (fs fs' : Files) : Prop where
  read : ∀ key, key.Ordinary → fs'.read (s.cachePath key) = fs.read (s.cachePath key)
  file : ∀ key, key.Ordinary →
    fs'.file? (fs'.place (s.cachePath key)) = fs.file? (fs.place (s.cachePath key))

/-- What is found on record is kept in its file. -/
theorem kept_of_recorded {a : CodeArtifact} (h : s.recorded fs key = some a) :
    s.kept fs key = some a := by
  obtain ⟨content, hread, ha⟩ := Option.bind_eq_some_iff.1 h
  rw [kept, (Files.read_eq_some.1 hread).2, Option.bind_some, ha]

/-- What is found is kept, so it is enough that what is kept is found. -/
theorem settled_of_kept
    (h : ∀ key, key.Ordinary → ∀ a, s.kept fs key = some a → s.recorded fs key = some a) :
    s.Settled fs := by
  intro key hkey
  cases hk : s.kept fs key with
  | some a => exact h key hkey a hk
  | none =>
    cases hr : s.recorded fs key with
    | none => rfl
    | some a => rw [kept_of_recorded hr] at hk; cases hk

/-- Where no record is an artifact, nothing is kept. -/
theorem Unrecorded.kept (h : s.Unrecorded fs) (hkey : key.Ordinary) : s.kept fs key = none :=
  Option.bind_eq_none_iff.2 (h key hkey)

/-- A file that stands somewhere is among the entries. -/
theorem exists_mem_entries {place : List String} {content : Bytes}
    (h : fs.file? place = some content) : ∃ e ∈ fs.entries, e.2.content? = some content := by
  obtain ⟨e, he, hc⟩ := Option.bind_eq_some_iff.1 h
  unfold Files.entry? at he
  split at he
  · cases he
    cases hc
  · obtain ⟨before, rest, hentries, -⟩ := List.lookup_eq_some_iff.1 he
    exact ⟨(place, e), by simp [hentries], hc⟩

/-- Nothing is on record where no file is an artifact. -/
theorem unrecorded_of_entries
    (h : ∀ e ∈ fs.entries, e.2.content?.bind CodeArtifact.ofFile? = none) : s.Unrecorded fs := by
  intro key _ content hcontent
  obtain ⟨e, he, hc⟩ := exists_mem_entries hcontent
  have hnone := h e he
  rwa [hc] at hnone

theorem Unrecorded.settled (h : s.Unrecorded fs) : s.Settled fs :=
  settled_of_kept fun key hkey a ha => by rw [h.kept hkey] at ha; cases ha

/-- What is on record stays, if nothing changes for the records. -/
theorem Undisturbed.recorded (h : s.Undisturbed fs fs') (hkey : key.Ordinary) :
    s.recorded fs' key = s.recorded fs key := by
  rw [CodeStore.recorded, h.read key hkey, CodeStore.recorded]

/-- What is kept is found also later, if nothing changes for the records. -/
theorem Settled.undisturbed (h : s.Settled fs) (hu : s.Undisturbed fs fs') : s.Settled fs' := by
  intro key hkey
  rw [hu.recorded hkey, h key hkey, kept, kept, hu.file key hkey]

/-- The file of a record is written as every file with an ordinary name. -/
theorem written_of_write {content : Bytes} (hkey : key.Ordinary)
    (hw : fs.write (s.cachePath key) content = some fs') :
    Files.Written fs (s.cachePath key) content fs' := by
  obtain ⟨front, hnames, -⟩ := Path.exists_names_join hkey.fileName
    (Path.join (Path.join s.root key.contractName) ("v" ++ key.version.text))
  exact Files.write_spec hnames hkey.fileName hw

/-- What is put in place for a key is what is kept for it, and changes nothing else. -/
theorem kept_of_written {a : CodeArtifact} (hkey : key.Ordinary)
    (hw : Files.Written fs (s.cachePath key) (Utf8.encode a.fileText) fs') (hkey' : key'.Ordinary) :
    s.kept fs' key' = if key' = key then some a else s.kept fs key' := by
  rw [kept, hw.isExtension.place, hw.file?_eq]
  by_cases h : key' = key
  · rw [if_pos h, if_pos (by rw [h]), Option.bind_some, CodeArtifact.ofFile?_fileText]
  · rw [if_neg h, if_neg fun hplace => h (place_cachePath_inj hkey' hkey hplace), kept]

/-- What is written for a key is recorded for it, and changes nothing else. -/
theorem Settled.write {a : CodeArtifact} (h : s.Settled fs) (hkey : key.Ordinary)
    (hw : fs.write (s.cachePath key) (Utf8.encode a.fileText) = some fs') :
    s.Settled fs' ∧ ∀ key', key'.Ordinary →
      s.recorded fs' key' = if key' = key then some a else s.recorded fs key' := by
  have hwritten := written_of_write hkey hw
  have hsettled : s.Settled fs' := by
    refine settled_of_kept fun key' hkey' b hb => ?_
    have hread : fs'.resolve (s.cachePath key') = some (fs'.place (s.cachePath key')) := by
      rw [hwritten.isExtension.place]
      by_cases hk : key' = key
      · rw [hk, hwritten.leads]
      · rw [kept_of_written hkey hwritten hkey', if_neg hk, ← h key' hkey'] at hb
        obtain ⟨content, hcontent, -⟩ := Option.bind_eq_some_iff.1 hb
        exact hwritten.isExtension.resolve (Files.read_eq_some.1 hcontent).1
    obtain ⟨content, hcontent, hb⟩ := Option.bind_eq_some_iff.1 hb
    rw [recorded, Files.read_eq_some.2 ⟨hread, hcontent⟩, Option.bind_some, hb]
  refine ⟨hsettled, fun key' hkey' => ?_⟩
  rw [hsettled key' hkey', kept_of_written hkey hwritten hkey', h key' hkey']

end CodeStore

end Handover
