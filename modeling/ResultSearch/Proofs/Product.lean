import Mathlib
import ResultSearch.Product
import ResultSearch.Proofs.Sorting

/-!
# Product specs written and read

A spec that was read is written in the grammar, and what is written is read as the same spec. The
text itself need not come back: the browser may have had capitals, labels may have been repeated or
in another order, and of a revision ten characters stay.

* `WellFormed`: what the grammar says of a spec that was read.
* `wellFormed_of_ofChars?`, `ofChars?_toChars`: what is read is well formed, and what is well formed
  is written and read back.
* `parse_text`: the same for texts.
-/

namespace ResultSearch.Product

/-! ## Labels -/

section Labels

variable {label l : String} {labels : List String} {cs : List Char}

theorem mem_insertLabel : l ∈ insertLabel label labels ↔ l = label ∨ l ∈ labels := by
  induction labels with
  | nil => exact List.mem_singleton.trans (or_iff_left List.not_mem_nil).symm
  | cons first rest ih =>
    rw [insertLabel]
    split
    · next heq => simp [heq]
    · split
      · exact List.mem_cons
      · rw [List.mem_cons, ih, List.mem_cons, or_left_comm]

theorem pairwise_insertLabel (h : labels.Pairwise (· < ·)) :
    (insertLabel label labels).Pairwise (· < ·) := by
  induction labels with
  | nil => exact List.pairwise_singleton _ _
  | cons first rest ih =>
    obtain ⟨hfirst, hrest⟩ := List.pairwise_cons.1 h
    rw [insertLabel]
    split
    · exact h
    · next hne =>
      split
      · next hlt =>
        refine List.pairwise_cons.2 ⟨fun l hl => ?_, h⟩
        rcases List.mem_cons.1 hl with rfl | hl
        · exact hlt
        · exact String.lt_trans hlt (hfirst l hl)
      · next hlt =>
        refine List.pairwise_cons.2 ⟨fun l hl => ?_, ih hrest⟩
        rcases mem_insertLabel.1 hl with rfl | hl
        · exact String.not_le.1 fun hle => hne (String.le_antisymm (String.not_lt.1 hlt) hle)
        · exact hfirst l hl

/-- A label that all others precede comes last. -/
theorem insertLabel_of_lt (h : ∀ l ∈ labels, l < label) :
    insertLabel label labels = labels ++ [label] := by
  induction labels with
  | nil => rfl
  | cons first rest ih =>
    have hlt : first < label := h first List.mem_cons_self
    rw [insertLabel, if_neg fun heq => String.lt_irrefl _ (heq ▸ hlt),
      if_neg fun hgt => String.lt_irrefl _ (String.lt_trans hlt hgt),
      ih fun l hl => h l (List.mem_cons_of_mem _ hl)]
    rfl

theorem pairwise_readLabels : (readLabels cs).Pairwise (· < ·) := by
  refine List.foldlRecOn _ _ List.Pairwise.nil fun labels hlabels label _ => ?_
  exact pairwise_insertLabel hlabels

theorem mem_readLabels (h : l ∈ readLabels cs) : l ≠ "" ∧ l.toList ∈ Text.split ',' cs := by
  have hmem : l ∈ ((Text.split ',' cs).filter fun l => !l.isEmpty).map String.ofList := by
    refine List.foldlRecOn (motive := fun acc => l ∈ acc → _) _ _ (fun h => absurd h List.not_mem_nil)
      (fun labels hlabels label hlabel h => ?_) h
    rcases mem_insertLabel.1 h with rfl | h
    · exact hlabel
    · exact hlabels h
  obtain ⟨piece, hpiece, rfl⟩ := List.mem_map.1 hmem
  obtain ⟨hpiece, hne⟩ := List.mem_filter.1 hpiece
  refine ⟨fun h => ?_, ?_⟩
  · simp [String.ofList_eq_empty_iff] at h
    simp [h] at hne
  · rwa [String.toList_ofList]

theorem readLabels_join (hne : labels ≠ []) (hlabels : labels.Pairwise (· < ·))
    (hplain : ∀ l ∈ labels, l ≠ "" ∧ ',' ∉ l.toList) :
    readLabels (Text.join ',' (labels.map String.toList)) = labels := by
  have hsplit : Text.split ',' (Text.join ',' (labels.map String.toList)) =
      labels.map String.toList := by
    refine Text.split_join (fun h => hne (List.map_eq_nil_iff.1 h)) fun piece hpiece => ?_
    obtain ⟨l, hl, rfl⟩ := List.mem_map.1 hpiece
    exact (hplain l hl).2
  have hfilter : (labels.map String.toList).filter (fun l => !l.isEmpty) =
      labels.map String.toList := by
    refine List.filter_eq_self.2 fun piece hpiece => ?_
    obtain ⟨l, hl, rfl⟩ := List.mem_map.1 hpiece
    simpa using (hplain l hl).1
  have hmap : (labels.map String.toList).map String.ofList = labels := by simp
  rw [readLabels, hsplit, hfilter, hmap]
  exact Sorting.foldl_of_ascending (f := id) (fun l a => insertLabel_of_lt) hlabels

end Labels

/-! ## What the grammar says -/

/-- The parts of a spec before its labels. -/
def pieces (p : Product) : List (List Char) :=
  p.browser.toList :: ([p.version, p.os, p.osVersion].filterMap id).map String.toList

theorem length_pieces_le (p : Product) : p.pieces.length ≤ 4 := by
  rw [pieces, List.length_cons, List.length_map]
  exact Nat.succ_le_succ (List.length_filterMap_le _ _)

/-- A spec as the grammar has it. -/
structure WellFormed (p : Product) : Prop where
  browser_isName : isBrowserName p.browser.toList = true
  browser_lower : p.browser.toList.map Char.toLower = p.browser.toList
  version_isVersion : ∀ v ∈ p.version, isVersion v.toList = true
  osVersion_isVersion : ∀ v ∈ p.osVersion, isVersion v.toList = true
  version_of_os : p.os.isSome → p.version.isSome
  os_of_osVersion : p.osVersion.isSome → p.os.isSome
  pieces_plain : ∀ piece ∈ p.pieces, '-' ∉ piece ∧ '[' ∉ piece ∧ '@' ∉ piece
  labels_ascend : p.labels.Pairwise (· < ·)
  labels_plain : ∀ l ∈ p.labels, l ≠ "" ∧
    ',' ∉ l.toList ∧ '[' ∉ l.toList ∧ ']' ∉ l.toList ∧ '@' ∉ l.toList
  revision_isRevision : ∀ rev ∈ p.revision, rev.length = 10 ∧ rev.toList.all isHexDigit = true

/-! ## Reading -/

section Reading

variable {cs name : List Char} {labels : List String} {revision : Option String} {p : Product}

theorem readRevision_cases (h : readRevision cs = some revision) :
    ∀ rev ∈ revision, rev.length = 10 ∧ rev.toList.all isHexDigit = true := by
  intro rev hrev
  unfold readRevision at h
  split at h
  · obtain rfl := Option.some.inj h
    cases hrev
  · split at h
    · next hhex =>
      obtain rfl := Option.some.inj h
      obtain rfl := Option.some.inj hrev
      refine ⟨?_, ?_⟩
      · rw [String.length_ofList, List.length_take, Nat.min_eq_left hhex.1]
      · rw [String.toList_ofList, List.all_eq_true]
        exact fun c hc => List.all_eq_true.1 hhex.2.2 c (List.mem_of_mem_take hc)
    · cases h

theorem readHead_cases (h : readHead cs = some (name, revision)) :
    '@' ∉ name ∧ ∀ rev ∈ revision, rev.length = 10 ∧ rev.toList.all isHexDigit = true := by
  unfold readHead at h
  split at h
  · next hsplit =>
    cases h
    exact ⟨Text.not_mem_of_mem_split (hsplit ▸ List.mem_cons_self), nofun⟩
  · next hsplit =>
    obtain ⟨rev, hrev, heq⟩ := Option.map_eq_some_iff.1 h
    cases heq
    exact ⟨Text.not_mem_of_mem_split (hsplit ▸ List.mem_cons_self), readRevision_cases hrev⟩
  · cases h

theorem readBrackets_cases (h : readBrackets cs = some (name, labels)) :
    ('[' ∉ name ∧ name ⊆ cs) ∧ labels.Pairwise (· < ·) ∧
      ∀ l ∈ labels, l ≠ "" ∧ l.toList ⊆ cs ∧ ',' ∉ l.toList ∧ '[' ∉ l.toList ∧ ']' ∉ l.toList := by
  unfold readBrackets at h
  rcases Text.cutAt_cases '[' cs with ⟨hcs, hcut⟩ | ⟨before, rest, hbefore, rfl, hcut⟩
  · rw [hcut] at h
    cases h
    exact ⟨⟨hcs, List.Subset.refl _⟩, List.Pairwise.nil, nofun⟩
  · simp only [hcut] at h
    split at h
    · cases h
    · next inner hinner =>
      split at h
      · cases h
      · next hplain =>
        cases h
        obtain ⟨hopen, hclose⟩ := by simpa using hplain
        refine ⟨⟨hbefore, List.subset_append_left _ _⟩, pairwise_readLabels, fun l hl => ?_⟩
        obtain ⟨hne, hmem⟩ := mem_readLabels hl
        have hsub := Text.subset_of_mem_split hmem
        refine ⟨hne, fun c hc => ?_, Text.not_mem_of_mem_split hmem, fun hc => hopen (hsub hc),
          fun hc => hclose (hsub hc)⟩
        rw [Text.eq_concat_of_dropLast? hinner]
        simp [hsub hc]

/-- The characters of a browser's name are none of those that part a spec. -/
theorem browser_plain (h : isBrowserName cs = true) : '-' ∉ cs ∧ '[' ∉ cs ∧ '@' ∉ cs := by
  have hall := List.all_eq_true.1 (Bool.and_eq_true_iff.1 h).2
  exact ⟨fun hc => absurd (hall _ hc) (by decide), fun hc => absurd (hall _ hc) (by decide),
    fun hc => absurd (hall _ hc) (by decide)⟩

theorem readVersion_cases {piece : Option (List Char)} {version : Option String}
    (h : readVersion piece = some version) :
    version = piece.map String.ofList ∧ ∀ v ∈ version, isVersion v.toList = true := by
  cases piece with
  | none =>
    obtain rfl := Option.some.inj h
    exact ⟨rfl, nofun⟩
  | some cs =>
    rw [readVersion] at h
    split at h
    · next hversion =>
      obtain rfl := Option.some.inj h
      refine ⟨rfl, fun v hv => ?_⟩
      obtain rfl := Option.some.inj hv
      rwa [String.toList_ofList]
    · cases h

/-- The steps in which a spec is read. -/
theorem ofChars?_eq_some_iff : ofChars? cs = some p ↔ ∃ head name,
    readHead cs = some (head, p.revision) ∧ readBrackets head = some (name, p.labels) ∧
      (Text.split '-' name).length ≤ 4 ∧
      p.browser = String.ofList (((Text.split '-' name).headD []).map Char.toLower) ∧
      isBrowserName p.browser.toList = true ∧
      readVersion (Text.split '-' name)[1]? = some p.version ∧
      p.os = (Text.split '-' name)[2]?.map String.ofList ∧
      readVersion (Text.split '-' name)[3]? = some p.osVersion := by
  constructor
  · intro h
    obtain ⟨⟨head, revision⟩, hhead, h⟩ := Option.bind_eq_some_iff.1 h
    obtain ⟨⟨name, labels⟩, hbrackets, h⟩ := Option.bind_eq_some_iff.1 h
    dsimp only at h
    split at h
    · cases h
    · next hlength =>
      split at h
      · next hbrowser =>
        obtain ⟨version, hversion, h⟩ := Option.bind_eq_some_iff.1 h
        obtain ⟨osVersion, hosVersion, h⟩ := Option.bind_eq_some_iff.1 h
        obtain rfl := Option.some.inj h
        exact ⟨head, name, hhead, hbrackets, Nat.le_of_not_lt hlength, rfl,
          by rwa [String.toList_ofList], hversion, rfl, hosVersion⟩
      · cases h
  · rintro ⟨head, name, hhead, hbrackets, hlength, hbrowser, hname, hversion, hos, hosVersion⟩
    rw [hbrowser, String.toList_ofList] at hname
    rw [ofChars?, hhead]
    dsimp only [Option.bind_eq_bind, Option.bind_some]
    rw [hbrackets]
    dsimp only [Option.bind_some]
    rw [if_neg (Nat.not_lt.2 hlength), if_pos hname, hversion, hosVersion, ← hos, ← hbrowser]
    rfl

/-- What is read is well formed. -/
theorem wellFormed_of_ofChars? (h : ofChars? cs = some p) : p.WellFormed := by
  obtain ⟨head, name, hhead, hbrackets, -, hbrowser, hname, hversion, hos, hosVersion⟩ :=
    ofChars?_eq_some_iff.1 h
  obtain ⟨hat, hrevision⟩ := readHead_cases hhead
  obtain ⟨⟨hopen, hsub⟩, hascend, hlabels⟩ := readBrackets_cases hbrackets
  obtain ⟨hversion, hisVersion⟩ := readVersion_cases hversion
  obtain ⟨hosVersion, hisOsVersion⟩ := readVersion_cases hosVersion
  have hpiece : ∀ (i : Nat) piece, (Text.split '-' name)[i]? = some piece →
      '-' ∉ piece ∧ '[' ∉ piece ∧ '@' ∉ piece := by
    intro i piece hi
    have hmem := List.mem_of_getElem? hi
    have hpiece := Text.subset_of_mem_split hmem
    exact ⟨Text.not_mem_of_mem_split hmem, fun hc => hopen (hpiece hc),
      fun hc => hat (hsub (hpiece hc))⟩
  have hearlier : ∀ i : Nat, (Text.split '-' name)[i + 1]?.isSome →
      (Text.split '-' name)[i]?.isSome := by
    intro i hi
    obtain ⟨piece, hpiece⟩ := Option.isSome_iff_exists.1 hi
    rw [List.getElem?_eq_getElem (Nat.lt_of_succ_lt (List.getElem?_eq_some_iff.1 hpiece).1)]
    rfl
  refine ⟨hname, ?_, hisVersion, hisOsVersion, ?_, ?_, ?_, hascend, ?_, hrevision⟩
  · simp [hbrowser, Char.toLower_toLower_eq_toLower]
  · rw [hos, hversion, Option.isSome_map, Option.isSome_map]
    exact hearlier 1
  · rw [hos, hosVersion, Option.isSome_map, Option.isSome_map]
    exact hearlier 2
  · intro piece hmem
    rcases List.mem_cons.1 hmem with rfl | hmem
    · exact browser_plain hname
    · obtain ⟨s, hs, rfl⟩ := List.mem_map.1 hmem
      have hword : ∃ i : Nat, (Text.split '-' name)[i]?.map String.ofList = some s := by
        obtain hs | hs | hs : p.version = some s ∨ p.os = some s ∨ p.osVersion = some s := by
          simpa [List.mem_filterMap, eq_comm] using hs
        · exact ⟨1, hversion ▸ hs⟩
        · exact ⟨2, hos ▸ hs⟩
        · exact ⟨3, hosVersion ▸ hs⟩
      obtain ⟨i, hi⟩ := hword
      obtain ⟨piece, hsome, rfl⟩ := Option.map_eq_some_iff.1 hi
      rw [String.toList_ofList]
      exact hpiece i piece hsome
  · intro l hl
    obtain ⟨hne, hlabel, hcomma, hopen, hclose⟩ := hlabels l hl
    exact ⟨hne, hcomma, hopen, hclose, fun hc => hat (hlabel hc)⟩

end Reading

/-! ## Writing -/

section Writing

variable {p : Product} {name : List Char} {labels : List String}

/-- The labels between brackets, if there are any. -/
def labelChars (labels : List String) : List Char :=
  if labels.isEmpty then [] else '[' :: Text.join ',' (labels.map String.toList) ++ [']']

/-- The revision after its mark, if there is one. -/
def revisionChars : Option String → List Char
  | none => []
  | some rev => '@' :: rev.toList

theorem mem_labelChars {c : Char} (hplain : c ∉ ['[', ',', ']']) (h : c ∈ labelChars labels) :
    ∃ l ∈ labels, c ∈ l.toList := by
  unfold labelChars at h
  split at h
  · cases h
  · rw [List.cons_append, List.mem_cons, List.mem_append, List.mem_singleton] at h
    rcases h with rfl | h | rfl
    · exact absurd hplain (by decide)
    · rcases Text.mem_join h with rfl | ⟨piece, hpiece, hc⟩
      · exact absurd hplain (by decide)
      · obtain ⟨l, hl, rfl⟩ := List.mem_map.1 hpiece
        exact ⟨l, hl, hc⟩
    · exact absurd hplain (by decide)

theorem readVersion_map {version : Option String} (h : ∀ v ∈ version, isVersion v.toList = true) :
    readVersion (version.map String.toList) = some version := by
  cases version with
  | none => rfl
  | some v =>
    rw [Option.map_some, readVersion, if_pos (h v rfl), String.ofList_toList]

theorem readHead_append (h : '@' ∉ name) {revision : Option String}
    (hrevision : ∀ rev ∈ revision, rev.length = 10 ∧ rev.toList.all isHexDigit = true) :
    readHead (name ++ revisionChars revision) = some (name, revision) := by
  cases revision with
  | none =>
    rw [revisionChars, List.append_nil, readHead, Text.split_of_not_mem h]
  | some rev =>
    obtain ⟨hlength, hhex⟩ := hrevision rev rfl
    rw [← String.length_toList] at hlength
    have hat : '@' ∉ rev.toList := fun hc => absurd (List.all_eq_true.1 hhex _ hc) (by decide)
    have hlatest : rev.toList ≠ latest.toList := fun heq => by
      rw [heq] at hlength
      exact absurd hlength (by decide)
    have hread : readRevision rev.toList = some (some rev) := by
      have hempty : rev.toList.isEmpty = false := by
        rw [List.isEmpty_eq_false_iff, ← List.length_pos_iff, hlength]
        exact Nat.succ_pos 9
      rw [readRevision, if_neg (by simp [hempty, hlatest]), if_pos (by simp [hlength, hhex]),
        List.take_of_length_le (Nat.le_of_eq hlength), String.ofList_toList]
    rw [revisionChars, readHead, Text.split_append h, Text.split_of_not_mem hat]
    dsimp only
    rw [hread]
    rfl

theorem readBrackets_append (h : '[' ∉ name) (hascend : labels.Pairwise (· < ·))
    (hplain : ∀ l ∈ labels, l ≠ "" ∧
      ',' ∉ l.toList ∧ '[' ∉ l.toList ∧ ']' ∉ l.toList ∧ '@' ∉ l.toList) :
    readBrackets (name ++ labelChars labels) = some (name, labels) := by
  unfold labelChars
  split
  · next hempty =>
    obtain rfl := List.isEmpty_iff.1 hempty
    rw [List.append_nil, readBrackets, Text.cutAt_of_not_mem h]
  · next hne =>
    have hinner : ∀ c ∈ ['[', ']'], c ∉ Text.join ',' (labels.map String.toList) := by
      intro c hc hmem
      rcases Text.mem_join hmem with rfl | ⟨piece, hpiece, hmem⟩
      · exact absurd hc (by decide)
      · obtain ⟨l, hl, rfl⟩ := List.mem_map.1 hpiece
        obtain ⟨-, -, hopen, hclose, -⟩ := hplain l hl
        rcases List.mem_pair.1 hc with rfl | rfl
        · exact hopen hmem
        · exact hclose hmem
    have hopen := hinner '[' (by decide)
    have hclose := hinner ']' (by decide)
    have hread : readLabels (Text.join ',' (labels.map String.toList)) = labels :=
      readLabels_join (fun heq => hne (List.isEmpty_iff.2 heq)) hascend
        fun l hl => ⟨(hplain l hl).1, (hplain l hl).2.1⟩
    rw [List.cons_append, readBrackets, Text.cutAt_append h]
    dsimp only
    rw [Text.dropLast?_concat]
    dsimp only
    rw [if_neg (by simp [hopen, hclose]), hread]

/-- What is well formed is written and read back. -/
theorem ofChars?_toChars (h : p.WellFormed) : ofChars? p.toChars = some p := by
  have hsplit : Text.split '-' (Text.join '-' p.pieces) = p.pieces :=
    Text.split_join (List.cons_ne_nil _ _) fun piece hpiece => (h.pieces_plain piece hpiece).1
  have hopen : '[' ∉ Text.join '-' p.pieces := by
    intro hc
    rcases Text.mem_join hc with hc | ⟨piece, hpiece, hc⟩
    · exact absurd hc (by decide)
    · exact (h.pieces_plain piece hpiece).2.1 hc
  have hat : '@' ∉ Text.join '-' p.pieces ++ labelChars p.labels := by
    intro hc
    rcases List.mem_append.1 hc with hc | hc
    · rcases Text.mem_join hc with hc | ⟨piece, hpiece, hc⟩
      · exact absurd hc (by decide)
      · exact (h.pieces_plain piece hpiece).2.2 hc
    · obtain ⟨l, hl, hc⟩ := mem_labelChars (by decide) hc
      exact (h.labels_plain l hl).2.2.2.2 hc
  refine ofChars?_eq_some_iff.2 ⟨_, _, readHead_append hat h.revision_isRevision,
    readBrackets_append hopen h.labels_ascend h.labels_plain, ?_⟩
  rw [hsplit]
  obtain ⟨browser, version, os, osVersion, labels, revision⟩ := p
  have hbrowser : browser = String.ofList (browser.toList.map Char.toLower) := by
    rw [h.browser_lower, String.ofList_toList]
  have hname := h.browser_isName
  have hversion := readVersion_map h.version_isVersion
  have hosVersion := readVersion_map h.osVersion_isVersion
  cases version with
  | none =>
    obtain rfl : os = none := by simpa using h.version_of_os
    obtain rfl : osVersion = none := by simpa using h.os_of_osVersion
    exact ⟨length_pieces_le _, hbrowser, hname, hversion, rfl, hosVersion⟩
  | some version =>
    cases os with
    | none =>
      obtain rfl : osVersion = none := by simpa using h.os_of_osVersion
      exact ⟨length_pieces_le _, hbrowser, hname, hversion, rfl, hosVersion⟩
    | some os =>
      have hos : some os = some (String.ofList os.toList) := by rw [String.ofList_toList]
      cases osVersion with
      | none => exact ⟨length_pieces_le _, hbrowser, hname, hversion, hos, hosVersion⟩
      | some osVersion => exact ⟨length_pieces_le _, hbrowser, hname, hversion, hos, hosVersion⟩

theorem parse_eq_ok_iff {s : String} : parse s = .ok p ↔ ofChars? s.toList = some p := by
  rw [parse]
  cases ofChars? s.toList with
  | none => exact iff_of_false nofun nofun
  | some q => rw [Except.ok.injEq, Option.some.injEq]

theorem parse_text (h : p.WellFormed) : parse p.text = .ok p := by
  rw [parse_eq_ok_iff, text, String.toList_ofList]
  exact ofChars?_toChars h

end Writing

end ResultSearch.Product
