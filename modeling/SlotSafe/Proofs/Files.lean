import Mathlib.Data.List.Basic
import SlotSafe.Loading
import SlotSafe.Proofs.Success

/-!
# What a written file leaves behind

A text that is written into a file is found there (`content_of_write`), and every file at another
place holds what it held (`content_of_write_of_ne`). Paths say little about this: many paths lead to
one place, and a path is followed through whatever the directory holds. So a path is first taken to
the place that it leads to (`LeadsTo`). A new file never stands in the way of such a path, because
it is put where no directory was, and a path only passes through directories.
-/

namespace SlotSafe.Directory

variable {d : Directory} {p q : Place} {e : Entry}

/-! ## Entries -/

theorem lookup_replace (entries : List (Place × Entry)) (p q : Place) (e : Entry) :
    (entries.map fun x => if x.1 == p then (p, e) else x).lookup q
      = if q = p then (entries.lookup p).map (fun _ => e) else entries.lookup q := by
  simp only [beq_iff_eq]
  induction entries with
  | nil => simp
  | cons entry rest ih =>
    obtain ⟨place, content⟩ := entry
    rw [List.map_cons]
    by_cases hp : place = p
    · rw [if_pos hp, List.lookup_cons, List.lookup_cons, List.lookup_cons, ih, hp, beq_self_eq_true]
      by_cases hq : q = p
      · simp [hq]
      · simp [hq, beq_false_of_ne hq]
    · rw [if_neg hp, List.lookup_cons, List.lookup_cons, List.lookup_cons, ih,
        beq_false_of_ne (Ne.symm hp)]
      by_cases hq : q = p
      · simp [hq, beq_false_of_ne (Ne.symm hp)]
      · simp [hq]

/-- **An entry is found at its place**, and other places are left alone. -/
theorem lookup_put (d : Directory) (p q : Place) (e : Entry) :
    (d.put p e).entries.lookup q = if q = p then some e else d.entries.lookup q := by
  unfold put
  by_cases hany : d.entries.any (fun entry => entry.1 == p) = true
  · rw [if_pos hany, lookup_replace]
    obtain ⟨⟨place, old⟩, hmem, hplace⟩ := List.any_eq_true.mp hany
    have hsome : d.entries.lookup p ≠ none := by
      intro hnone
      have hne := List.lookup_eq_none_iff.mp hnone (place, old) hmem
      rw [beq_iff_eq] at hplace
      simp [← hplace] at hne
    obtain ⟨found, hfound⟩ := Option.ne_none_iff_exists'.mp hsome
    rw [hfound]
    rfl
  · have hnone : d.entries.lookup p = none := by
      refine List.lookup_eq_none_iff.mpr (fun entry hentry => ?_)
      by_contra hp
      rw [bne_iff_ne, not_not] at hp
      exact hany (List.any_eq_true.mpr ⟨entry, hentry, beq_iff_eq.mpr hp.symm⟩)
    rw [if_neg hany, List.lookup_append, List.lookup_cons]
    by_cases hq : q = p
    · rw [if_pos hq, hq, hnone, beq_self_eq_true]
      rfl
    · rw [if_neg hq, beq_false_of_ne hq]
      exact Option.or_none

/-- The places of entries stay those of entries. -/
theorem any_put (d : Directory) (p : Place) (e : Entry) (f : Place → Bool)
    (h : d.entries.any (fun x => f x.1) = true) :
    (d.put p e).entries.any (fun x => f x.1) = true := by
  unfold put
  split
  · rw [List.any_map]
    obtain ⟨x, hx, hf⟩ := List.any_eq_true.mp h
    refine List.any_eq_true.mpr ⟨x, hx, ?_⟩
    by_cases hp : x.1 = p
    · simpa [hp] using hf
    · simpa [hp] using hf
  · rw [List.any_append, h, Bool.true_or]

theorem entry?_put_self : entry? (d.put p e) p = some e := by
  unfold entry?
  rw [lookup_put, if_pos rfl]

/-- **Whatever stood at another place stands there still.** -/
theorem entry?_put_of_ne {e' : Entry} (hne : q ≠ p) (h : d.entry? q = some e') :
    entry? (d.put p e) q = some e' := by
  unfold entry? at h ⊢
  rw [lookup_put, if_neg hne]
  cases hlookup : d.entries.lookup q with
  | some found => rwa [hlookup] at h
  | none =>
    rw [hlookup] at h
    simp only [Option.ite_none_right_eq_some] at h ⊢
    exact ⟨any_put d p e (fun place => q.isPrefixOf place) h.1, h.2⟩

/-! ## Following a path -/

/-- **A part of a path that names an entry**: it neither stays nor goes back, and it is no longer
than a name may be. -/
structure IsName (part : String) : Prop where
  moves : ¬staysHere part = true
  forth : ¬part = ".."
  length : ¬nameLimit < part.utf8ByteSize

theorem follow_cons_of_isName (d : Directory) (here : Place) {part : String} (h : IsName part)
    (rest : List String) :
    d.follow here (part :: rest) = match d.entry? (here ++ [part]) with
      | none => .missing
      | some .directory => d.follow (here ++ [part]) rest
      | some (.file content) => if rest.isEmpty then .file content else .blocked := by
  rw [follow]
  exact (if_neg h.moves).trans ((if_neg h.forth).trans (if_neg h.length))

/-- **A path that reaches a directory goes on from there**, in the same way wherever the directories
that it passes through stand. -/
theorem follow_append {d d' : Directory}
    (hkept : ∀ q, d.entry? q = some .directory → d'.entry? q = some .directory)
    {here place : Place} {parts : List String} (h : d.follow here parts = .directory place)
    (rest : List String) : d'.follow here (parts ++ rest) = d'.follow place rest := by
  fun_induction follow d here parts with
  | case1 here =>
    cases h
    rfl
  | case2 here part more hstays ih => rw [List.cons_append, follow, if_pos hstays, ih h]
  | case3 here more hmoves ih => rw [List.cons_append, follow, if_neg hmoves, if_pos rfl, ih h]
  | case6 here part more hmoves hforth hlength hentry ih =>
    rw [List.cons_append, follow_cons_of_isName d' here ⟨hmoves, hforth, hlength⟩, hkept _ hentry]
    exact ih h
  | _ => cases h

/-- A path that reaches a file reaches the directory that holds it. -/
theorem exists_directory_of_follow {here : Place} {parts : List String} {content : Content}
    (h : d.follow here parts = .file content) :
    ∃ before part place, parts = before ++ [part] ∧ d.follow here before = .directory place
      ∧ IsName part ∧ d.entry? (place ++ [part]) = some (.file content) := by
  fun_induction follow d here parts with
  | case2 here part more hstays ih =>
    obtain ⟨before, last, place, rfl, hfollow, hlast⟩ := ih h
    exact ⟨part :: before, last, place, rfl, by rw [follow, if_pos hstays, hfollow], hlast⟩
  | case3 here more hmoves ih =>
    obtain ⟨before, last, place, rfl, hfollow, hlast⟩ := ih h
    exact ⟨".." :: before, last, place, rfl, by rw [follow, if_neg hmoves, if_pos rfl, hfollow],
      hlast⟩
  | case6 here part more hmoves hforth hlength hentry ih =>
    obtain ⟨before, last, place, rfl, hfollow, hlast⟩ := ih h
    refine ⟨part :: before, last, place, rfl, ?_, hlast⟩
    rw [follow_cons_of_isName d here ⟨hmoves, hforth, hlength⟩, hentry]
    exact hfollow
  | case7 here part more hmoves hforth hlength found hentry hlast =>
    cases h
    rw [List.isEmpty_iff] at hlast
    exact ⟨[], part, here, by rw [hlast]; rfl, rfl, ⟨hmoves, hforth, hlength⟩, hentry⟩
  | _ => cases h

/-! ## The place that a path leads to -/

/-- **A path leads to a place for a file**: its last part is a name in the directory that the parts
before it reach. -/
structure LeadsTo (d : Directory) (path : String) (p : Place) : Prop where
  noNull : ¬path.toList.contains '\x00' = true
  length : ¬pathLimit < path.utf8ByteSize
  place : ∃ before part place, pathParts path = before ++ [part]
    ∧ d.follow (origin path) before = .directory place ∧ IsName part ∧ p = place ++ [part]

theorem not_isEmpty_of_leadsTo {path : String} (h : LeadsTo d path p) : path.isEmpty = false := by
  obtain ⟨before, part, place, hparts, -, hname, -⟩ := h.place
  by_contra hempty
  rw [Bool.not_eq_false, String.isEmpty_iff] at hempty
  have hnone : pathParts "" = [""] := by decide
  rw [hempty, hnone] at hparts
  have hlast : part = "" := by simpa using (congrArg List.getLast? hparts).symm
  exact hname.moves (by rw [hlast]; decide)

/-- **A file is read at the place that its path leads to.** -/
theorem destination_eq_file_iff {path : String} {content : Content} :
    d.destination path = .file content
      ↔ ∃ p, LeadsTo d path p ∧ d.entry? p = some (.file content) := by
  unfold destination
  constructor
  · intro h
    split at h
    · cases h
    · next hnull =>
      split at h
      · cases h
      · next hlength =>
        obtain ⟨before, part, place, hparts, hfollow, hname, hentry⟩ :=
          exists_directory_of_follow h
        rw [Bool.or_eq_true, not_or] at hnull
        exact ⟨_, ⟨hnull.2, hlength, before, part, place, hparts, hfollow, hname, rfl⟩, hentry⟩
  · rintro ⟨p, h, hentry⟩
    obtain ⟨before, part, place, hparts, hfollow, hname, rfl⟩ := h.place
    rw [not_isEmpty_of_leadsTo h, Bool.false_or, if_neg h.noNull, if_neg h.length, hparts,
      follow_append (fun _ hq => hq) hfollow, follow_cons_of_isName _ _ hname, hentry]
    rfl

/-- **A file is written at the place that its path leads to**, unless a directory stands there. -/
theorem placeFor_eq_ok_iff {path : String} :
    d.placeFor path = .ok p ↔ LeadsTo d path p ∧ d.entry? p ≠ some .directory := by
  unfold placeFor
  constructor
  · intro h
    rw [ite_error_eq_ok_iff, ite_error_eq_ok_iff] at h
    obtain ⟨hnull, hlength, h⟩ := h
    -- a path that does not end in a slash is split before its last part
    have hsuffix := List.dropWhile_suffix (l := (pathParts path).reverse) (· == "")
    have hhead := List.head?_dropWhile_not (· == "") (pathParts path).reverse
    cases hnamed : (pathParts path).reverse.dropWhile (· == "") with
    | nil => simp [hnamed] at h
    | cons part before =>
      rw [hnamed] at hsuffix hhead
      cases hfollow : d.follow (origin path) before.reverse with
      | directory place =>
        simp only [hnamed, hfollow, ite_error_eq_ok_iff] at h
        obtain ⟨hshape, hshort, hentry, h⟩ := h
        cases h
        simp at hshape hhead
        have hall := hsuffix.eq_of_length (by simpa using hshape.1.1)
        have hparts : pathParts path = before.reverse ++ [part] := by
          rw [← List.reverse_cons, hall, List.reverse_reverse]
        have hname : IsName part :=
          ⟨by simp [staysHere, hhead, hshape.1.2], hshape.2, hshort⟩
        exact ⟨⟨hnull, hlength, before.reverse, part, place, hparts, hfollow, hname, rfl⟩, hentry⟩
      | _ => simp [hnamed, hfollow] at h
  · rintro ⟨h, hentry⟩
    obtain ⟨before, part, place, hparts, hfollow, hname, rfl⟩ := h.place
    have hempty : part ≠ "" := fun h => hname.moves (by rw [h]; decide)
    have hpoint : part ≠ "." := fun h => hname.moves (by rw [h]; decide)
    rw [if_neg h.noNull, if_neg h.length]
    simp only [hparts, List.reverse_append, List.reverse_singleton, List.singleton_append,
      List.dropWhile_cons, beq_iff_eq, hempty, if_false, List.reverse_reverse, hfollow]
    simp [hname.forth, hpoint, hname.length, hentry]

/-! ## Writing -/

/-- A new file that takes no directory's place leaves the way of every path as it was. -/
theorem LeadsTo.put {path : String} (h : LeadsTo d path q) (hp : d.entry? p ≠ some .directory)
    (e : Entry) : LeadsTo (d.put p e) path q := by
  have hkept : ∀ r, d.entry? r = some .directory → entry? (d.put p e) r = some .directory := by
    intro r hr
    refine entry?_put_of_ne (fun heq => hp ?_) hr
    rw [← heq, hr]
  obtain ⟨before, part, place, hparts, hfollow, hname, rfl⟩ := h.place
  refine ⟨h.noNull, h.length, before, part, place, hparts, ?_, hname, rfl⟩
  have hreach := follow_append hkept hfollow []
  rw [List.append_nil] at hreach
  exact hreach

theorem write_eq_ok_iff {path : String} {chars : List Char} {d' : Directory} :
    d.write path chars = .ok d' ↔
      ∃ p, d.placeFor path = .ok p ∧ d' = d.put p (.file (.text chars)) := by
  unfold write
  cases d.placeFor path with
  | error fault => simp [bind, Except.bind]
  | ok p => simp [bind, Except.bind, eq_comm]

theorem content_eq_ok_iff {path : String} {content : Content} :
    d.content path = .ok content ↔ d.destination path = .file content := by
  unfold Directory.content
  cases d.destination path <;> simp

/-- **A written text is found where it was written.** -/
theorem content_of_write {path : String} {chars : List Char} {d' : Directory}
    (h : d.write path chars = .ok d') : d'.content path = .ok (.text chars) := by
  obtain ⟨p, hplace, rfl⟩ := write_eq_ok_iff.mp h
  obtain ⟨hleads, hfree⟩ := placeFor_eq_ok_iff.mp hplace
  rw [content_eq_ok_iff, destination_eq_file_iff]
  exact ⟨p, hleads.put hfree _, entry?_put_self⟩

/-- **A file at another place holds what it held.** -/
theorem content_of_write_of_ne {path other : String} {chars : List Char} {d' : Directory}
    {content : Content} (h : d.write path chars = .ok d')
    (hother : d.placeFor other ≠ d.placeFor path) (hcontent : d.content other = .ok content) :
    d'.content other = .ok content := by
  obtain ⟨p, hplace, rfl⟩ := write_eq_ok_iff.mp h
  obtain ⟨hleads, hfree⟩ := placeFor_eq_ok_iff.mp hplace
  rw [content_eq_ok_iff, destination_eq_file_iff] at hcontent ⊢
  obtain ⟨q, hq, hentry⟩ := hcontent
  have hne : q ≠ p := by
    intro heq
    refine hother ?_
    rw [hplace, placeFor_eq_ok_iff.mpr ⟨heq ▸ hq, hfree⟩]
  exact ⟨q, hq.put hfree _, entry?_put_of_ne hne hentry⟩

theorem exists?_of_content {path : String} {content : Content} (h : d.content path = .ok content) :
    d.exists? path = true := by
  rw [content_eq_ok_iff] at h
  unfold Directory.exists?
  rw [h]

end SlotSafe.Directory
