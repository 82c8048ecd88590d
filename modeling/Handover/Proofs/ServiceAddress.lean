import Handover.ServiceAddress
import Mathlib.Data.List.TakeDrop
import Mathlib.Data.List.TakeWhile

/-!
# Reading and writing the address of the service

The text of an address is cut at its first colon, before any address on the web is read. So what
comes before that colon is all that tells a token from a scheme (`ServiceAddress.IsToken`), and it
is compared as it stands. An address on the web may spell its scheme in capitals, or come after
blanks, and is then taken for a token and the rest of the address
(`ServiceAddress.ofText_of_url`). What is written starts with the scheme as its name has it, so it
is cut at the same colon again (`ServiceAddress.ofText_text`).
-/

namespace Handover

/-! ## Names of schemes -/

namespace Scheme

theorem ofName?_name (s : Scheme) : ofName? s.name = some s := by
  cases s <;> decide

theorem name_of_ofName? {t : String} {s : Scheme} (h : ofName? t = some s) : s.name = t := by
  simpa using List.find?_some h

/-- What is not read as a scheme is the name of none. -/
theorem ofName?_eq_none_iff {t : String} : ofName? t = none ↔ ∀ s : Scheme, t ≠ s.name := by
  constructor
  · rintro h s rfl
    rw [ofName?_name] at h
    cases h
  · intro h
    rw [Option.eq_none_iff_forall_ne_some]
    exact fun s hs => h s (name_of_ofName? hs).symm

theorem colon_notMem_name (s : Scheme) : ':' ∉ s.name.toList := by
  cases s <;> decide

end Scheme

/-! ## Schemes of addresses on the web -/

namespace Url

/-- The name of a scheme is split off at its colon. -/
theorem splitScheme_name (s : Scheme) (rest : List Char) :
    splitScheme (s.name.toList ++ ':' :: rest) = some (s.name, rest) := by
  cases s <;> rfl

/-- An address has the scheme it was read with. -/
theorem scheme_of_readLocation {s : Scheme} {cs : List Char} {url : Url}
    (h : readLocation s cs = some url) : url.scheme = s := by
  unfold readLocation at h
  simp only [Option.bind_eq_bind, Option.bind_eq_some_iff, Option.pure_def, Option.some.injEq] at h
  obtain ⟨host, -, port, -, rfl⟩ := h
  rfl

/-- An address is read from a scheme of its own, in any spelling, and a location. -/
theorem exists_scheme_of_ofText {text : String} {url : Url} (h : ofText text = .ok url) :
    ∃ rest, splitScheme (cleaned text) = some (url.scheme.name, rest) := by
  unfold ofText at h
  split at h
  · cases h
  · rename_i name rest hsplit
    split at h
    · rename_i s hs
      split at h
      · rename_i url' hurl
        cases h
        exact ⟨rest, by rw [hsplit, scheme_of_readLocation hurl, Scheme.name_of_ofName? hs]⟩
      · cases h
    · cases h

/-- Cleaning a text adds no character. -/
theorem mem_of_mem_cleaned {text : String} {c : Char} (h : c ∈ cleaned text) : c ∈ text.toList := by
  simp only [cleaned, List.mem_filter, List.mem_reverse] at h
  exact List.dropWhile_subset _ (List.mem_reverse.1 (List.dropWhile_subset _ h.1))

/-- A scheme ends with a colon. -/
theorem colon_mem_of_splitScheme {cs rest : List Char} {name : String}
    (h : splitScheme cs = some (name, rest)) : ':' ∈ cs := by
  unfold splitScheme at h
  split at h
  · cases h
  · rename_i first cs
    split at h
    · cases h
    · split at h
      · rename_i rest' hdrop
        have hmem : ':' ∈ cs.dropWhile isSchemeChar := by simp [hdrop]
        exact List.mem_cons_of_mem _ (List.dropWhile_subset _ hmem)
      · cases h

/-- Every address has a colon. -/
theorem colon_mem_of_ofText {text : String} {url : Url} (h : ofText text = .ok url) :
    ':' ∈ text.toList := by
  obtain ⟨rest, hrest⟩ := exists_scheme_of_ofText h
  exact mem_of_mem_cleaned (colon_mem_of_splitScheme hrest)

theorem dropWhile_append_cons {p : Char → Bool} {c : Char} (hc : p c = false) (cs ds : List Char) :
    ∃ front, (cs ++ c :: ds).dropWhile p = front ++ c :: ds := by
  rw [List.dropWhile_append]
  split
  · exact ⟨[], by rw [List.dropWhile_cons_of_neg (by simp [hc]), List.nil_append]⟩
  · exact ⟨_, rfl⟩

/-- Cleaning leaves the name of a scheme at the front as it is. -/
theorem exists_cleaned_name (s : Scheme) (rest : String) :
    ∃ cs, cleaned (s.name ++ ":" ++ rest) = s.name.toList ++ ':' :: cs := by
  have htext : (s.name ++ ":" ++ rest).toList = s.name.toList ++ ':' :: rest.toList := by
    simp [String.toList_append]
  have hfront : ∀ cs, (s.name.toList ++ ':' :: cs).dropWhile
      (fun c : Char => decide (c.toNat ≤ 0x20)) = s.name.toList ++ ':' :: cs := by
    cases s <;> exact fun cs => rfl
  have hkept : s.name.toList.filter (fun c => !(['\t', '\n', '\r'].contains c)) =
      s.name.toList := by
    cases s <;> rfl
  -- the blanks at the end go up to the colon at most
  obtain ⟨back, hback⟩ := dropWhile_append_cons (p := fun c : Char => decide (c.toNat ≤ 0x20))
    (c := ':') rfl rest.toList.reverse s.name.toList.reverse
  refine ⟨back.reverse.filter fun c => !(['\t', '\n', '\r'].contains c), ?_⟩
  rw [cleaned, htext]
  simp only [hfront, List.reverse_append, List.reverse_cons, List.append_assoc, List.cons_append,
    List.nil_append, hback, List.reverse_reverse, List.filter_append, hkept]
  rfl

/-- An address that starts with the name of a scheme has that scheme. -/
theorem scheme_of_ofText {s : Scheme} {rest : String} {url : Url}
    (h : ofText (s.name ++ ":" ++ rest) = .ok url) : url.scheme = s := by
  obtain ⟨cs, hcs⟩ := exists_cleaned_name s rest
  obtain ⟨rest', hrest⟩ := exists_scheme_of_ofText h
  rw [hcs, splitScheme_name, Option.some.injEq, Prod.mk.injEq] at hrest
  have hname := congrArg Scheme.ofName? hrest.1
  rw [Scheme.ofName?_name, Scheme.ofName?_name, Option.some.injEq] at hname
  exact hname.symm

end Url

namespace ServiceAddress

/-! ## Reading -/

/-- What can stand before the colon as a token : no colon, and no name of a scheme. -/
structure IsToken (t : String) : Prop where
  no_colon : ':' ∉ t.toList
  not_scheme : ∀ s : Scheme, t ≠ s.name

theorem bne_colon {cs : List Char} (h : ':' ∉ cs) : ∀ c ∈ cs, (c != ':') = true :=
  fun _ hc => bne_iff_ne.2 fun hcolon => h (hcolon ▸ hc)

/-- A text is split at its first colon. -/
theorem span_colon {before : List Char} (h : ':' ∉ before) (after : List Char) :
    (before ++ ':' :: after).span (· != ':') = (before, ':' :: after) := by
  rw [List.span_eq_takeWhile_dropWhile, List.takeWhile_append_of_pos (bne_colon h),
    List.dropWhile_append_of_pos (bne_colon h)]
  simp

/-- A text is cut at its first colon. -/
theorem splitToken_append {t : String} (h : ':' ∉ t.toList) (rest : String) :
    splitToken (t ++ ":" ++ rest) =
      if (Scheme.ofName? t).isSome then (none, t ++ ":" ++ rest) else (some t, rest) := by
  have htext : (t ++ ":" ++ rest).toList = t.toList ++ ':' :: rest.toList := by
    simp [String.toList_append]
  rw [splitToken, htext, span_colon h]
  simp only [String.ofList_toList]

/-- A text that is cut is read if what comes behind is an address. -/
theorem ofText_eq_ok_iff {text : String} {a : ServiceAddress} :
    ofText text = .ok a ↔
      (splitToken text).1 = a.token ∧ Url.ofText (splitToken text).2 = .ok a.url := by
  unfold ofText
  cases hurl : Url.ofText (splitToken text).2 with
  | ok url =>
    simp only [hurl, Except.ok.injEq]
    constructor
    · rintro rfl
      exact ⟨rfl, rfl⟩
    · rintro ⟨htoken, hsame⟩
      rw [htoken, hsame]
  | error why => cases why <;> simp [hurl]

/-- An address that begins with a scheme is a URL without token. -/
theorem ofText_of_scheme (s : Scheme) {rest : String} {a : ServiceAddress} :
    ofText (s.name ++ ":" ++ rest) = .ok a ↔
      a.token = none ∧ Url.ofText (s.name ++ ":" ++ rest) = .ok a.url := by
  rw [ofText_eq_ok_iff, splitToken_append s.colon_notMem_name, Scheme.ofName?_name,
    Option.isSome_some, if_pos rfl, eq_comm]

/-- An address that begins with a token is read from what follows it. -/
theorem ofText_of_token {t : String} (h : IsToken t) {rest : String} {a : ServiceAddress} :
    ofText (t ++ ":" ++ rest) = .ok a ↔ a.token = some t ∧ Url.ofText rest = .ok a.url := by
  rw [ofText_eq_ok_iff, splitToken_append h.no_colon, Scheme.ofName?_eq_none_iff.2 h.not_scheme,
    Option.isSome_none, if_neg Bool.false_ne_true, eq_comm]

/-- What comes before the first colon of a text is the name of a scheme or a token. -/
theorem exists_before_colon {text : String} (h : ':' ∈ text.toList) :
    (∃ (s : Scheme) (rest : String), text = s.name ++ ":" ++ rest) ∨
      ∃ t rest, IsToken t ∧ text = t ++ ":" ++ rest := by
  obtain ⟨before, after, htext, hbefore⟩ := List.eq_append_cons_of_mem h
  have hsplit : text = String.ofList before ++ ":" ++ String.ofList after := by
    apply String.toList_inj.1
    simp [String.toList_append, htext]
  cases hname : Scheme.ofName? (String.ofList before) with
  | some s => exact Or.inl ⟨s, String.ofList after, by rw [Scheme.name_of_ofName? hname, hsplit]⟩
  | none =>
    exact Or.inr ⟨String.ofList before, String.ofList after,
      ⟨by simpa using hbefore, Scheme.ofName?_eq_none_iff.1 hname⟩, hsplit⟩

/-- Let `u` be any address on the web, in whatever spelling its reader takes. As the address of
the service it is read as it stands, without a token, exactly if it starts with the name of its
scheme. Any other spelling is cut at its first colon into a token and what is left, which then has
to be an address on its own. With a token before it, every spelling is read as that token and that
address. -/
theorem ofText_of_url {u : String} {url : Url} (h : Url.ofText u = .ok url) :
    (ofText u = .ok ⟨url, none⟩ ↔ ∃ rest, u = url.scheme.name ++ ":" ++ rest) ∧
      ((¬ ∃ rest, u = url.scheme.name ++ ":" ++ rest) →
        ∃ t rest, IsToken t ∧ u = t ++ ":" ++ rest ∧
          ∀ a, ofText u = .ok a ↔ a.token = some t ∧ Url.ofText rest = .ok a.url) ∧
      ∀ t, IsToken t → ofText (t ++ ":" ++ u) = .ok ⟨url, some t⟩ := by
  refine ⟨⟨fun hread => ?_, ?_⟩, fun hspelled => ?_, fun t ht => ?_⟩
  · rcases exists_before_colon (Url.colon_mem_of_ofText h) with ⟨s, rest, rfl⟩ | ⟨t, rest, ht, rfl⟩
    · exact ⟨rest, by rw [Url.scheme_of_ofText h]⟩
    · exact absurd ((ofText_of_token ht).1 hread).1 (by simp)
  · rintro ⟨rest, hu⟩
    rw [hu] at h ⊢
    exact (ofText_of_scheme url.scheme).2 ⟨rfl, h⟩
  · rcases exists_before_colon (Url.colon_mem_of_ofText h) with ⟨s, rest, rfl⟩ | ⟨t, rest, ht, rfl⟩
    · exact absurd ⟨rest, by rw [Url.scheme_of_ofText h]⟩ hspelled
    · exact ⟨t, rest, ht, rfl, fun a => ofText_of_token ht⟩
  · exact (ofText_of_token ht).2 ⟨rfl, h⟩

/-- The address `http://signer.example/`. -/
def signer : Url :=
  ⟨.http, "", "", "signer.example", none, [""], none, none⟩

theorem capitals_ofText_of_url :
    Url.ofText "HTTP://signer.example" = .ok signer ∧
      ofText "HTTP://signer.example" = .error (.invalidUrl "//signer.example") ∧
      ofText "tok:HTTP://signer.example" = .ok ⟨signer, some "tok"⟩ := by
  have h : Url.ofText "HTTP://signer.example" = .ok signer := by decide +kernel
  refine ⟨h, by decide +kernel, (ofText_of_url h).2.2 "tok" ⟨by decide, ?_⟩⟩
  intro s
  cases s <;> decide

/-! ## Writing -/

theorem splitToken_of_no_colon {text : String} (h : ':' ∉ text.toList) :
    splitToken text = (none, text) := by
  rw [splitToken, List.span_eq_takeWhile_dropWhile, List.dropWhile_eq_nil_iff.2 (bne_colon h)]

/-- What was cut off as a token is one, so it is cut off again wherever it stands. -/
theorem isToken_of_splitToken {text t : String} (h : (splitToken text).1 = some t) :
    IsToken t := by
  by_cases hcolon : ':' ∈ text.toList
  · rcases exists_before_colon hcolon with ⟨s, rest, rfl⟩ | ⟨t', rest, ht', rfl⟩
    · rw [splitToken_append s.colon_notMem_name, Scheme.ofName?_name] at h
      cases h
    · rw [splitToken_append ht'.no_colon, Scheme.ofName?_eq_none_iff.2 ht'.not_scheme] at h
      cases h
      exact ht'
  · rw [splitToken_of_no_colon hcolon] at h
    cases h

/-- What is read is read again from its written form, whatever the token, if the address on the
web is read again from its own. -/
theorem ofText_text {s : String} {a : ServiceAddress} (h : ofText s = .ok a)
    (again : Url.ofText a.url.text = .ok a.url) : ofText a.text = .ok a := by
  obtain ⟨url, token⟩ := a
  cases token with
  | none =>
    -- the written form starts with the scheme, whatever the reader took for it
    have htext : text ⟨url, none⟩ = url.scheme.name ++ ":" ++ url.location := by
      simp [text, Url.text]
    rw [htext]
    exact (ofText_of_scheme url.scheme).2 ⟨rfl, again⟩
  | some t =>
    have ht : IsToken t := isToken_of_splitToken (ofText_eq_ok_iff.1 h).1
    have htext : text ⟨url, some t⟩ = t ++ ":" ++ url.text := by
      simp [text]
    rw [htext]
    exact (ofText_of_token ht).2 ⟨rfl, again⟩

/-- A token that is a scheme in capitals, before an address with blanks and capitals around it. -/
theorem capitals_ofText_text :
    ofText "HTTP: \tHttp://Signer.Example:80 " = .ok ⟨signer, some "HTTP"⟩ ∧
      text ⟨signer, some "HTTP"⟩ = "HTTP:http://signer.example/" ∧
      ofText "HTTP:http://signer.example/" = .ok ⟨signer, some "HTTP"⟩ := by
  have h : ofText "HTTP: \tHttp://Signer.Example:80 " = .ok ⟨signer, some "HTTP"⟩ := by
    decide +kernel
  have htext : text ⟨signer, some "HTTP"⟩ = "HTTP:http://signer.example/" := by decide +kernel
  exact ⟨h, htext, htext ▸ ofText_text h (by decide +kernel)⟩

end ServiceAddress

end Handover
