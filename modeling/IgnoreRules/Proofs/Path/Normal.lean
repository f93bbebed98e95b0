import IgnoreRules.Path.Lexical

/-!
Paths that are read from text, and their normal forms.  The components of a text are the names
that were written, and a normal absolute path has neither `.` nor `..` among its names.
-/

namespace IgnoreRules

/-- A name that stands for itself between two slashes. -/
structure Name.Proper (name : Name) : Prop where
  nonempty : name ≠ []
  notHere : name ≠ Name.here
  noSlash : '/' ∉ name

structure Name.Plain (name : Name) : Prop extends Name.Proper name where
  notAbove : name ≠ Name.above

instance : DecidablePred Name.Plain := fun name =>
  decidable_of_iff (name ≠ [] ∧ name ≠ Name.here ∧ '/' ∉ name ∧ name ≠ Name.above)
    ⟨fun ⟨nonempty, notHere, noSlash, notAbove⟩ => ⟨⟨nonempty, notHere, noSlash⟩, notAbove⟩,
      fun plain => ⟨plain.nonempty, plain.notHere, plain.noSlash, plain.notAbove⟩⟩

theorem Name.Proper.named {name : Name} (proper : name.Proper) :
    ¬(name = [] ∨ name = Name.here) := by
  simp [proper.nonempty, proper.notHere]

theorem Name.kinds {name : Name} (noSlash : '/' ∉ name) :
    (name = [] ∨ name = Name.here) ∨ name = Name.above ∨ name.Plain := by
  by_cases skipped : name = [] ∨ name = Name.here
  · exact .inl skipped
  · by_cases isAbove : name = Name.above
    · exact .inr (.inl isAbove)
    · rw [not_or] at skipped
      exact .inr (.inr ⟨⟨skipped.1, skipped.2, noSlash⟩, isAbove⟩)

namespace Text

theorem pieces_of_forall_not {Alpha : Type} {separates : Alpha → Bool} {values : List Alpha}
    (inside : ∀ value ∈ values, separates value = false) : pieces separates values = [values] := by
  induction values with
  | nil => rfl
  | cons value rest inductionHypothesis =>
      rw [List.forall_mem_cons] at inside
      exact pieces_cons inside.1 (inductionHypothesis inside.2)

theorem pieces_append_cons {Alpha : Type} {separates : Alpha → Bool} {separator : Alpha}
    (cuts : separates separator = true) (values rest : List Alpha) :
    pieces separates (values ++ separator :: rest) =
      pieces separates values ++ pieces separates rest := by
  induction values with
  | nil => exact pieces_cons_separator cuts rest
  | cons value values inductionHypothesis =>
      cases inside : separates value with
      | true =>
          rw [List.cons_append, pieces_cons_separator inside, pieces_cons_separator inside,
            inductionHypothesis, List.cons_append]
      | false =>
          obtain ⟨first, others, cut⟩ := List.exists_cons_of_ne_nil (pieces_ne_nil separates values)
          have further : pieces separates (values ++ separator :: rest) =
              first :: (others ++ pieces separates rest) := by
            rw [inductionHypothesis, cut, List.cons_append]
          rw [pieces_cons inside cut, List.cons_append, pieces_cons inside further,
            List.cons_append]

theorem pieces_of_not_mem {Alpha : Type} [DecidableEq Alpha] {separator : Alpha}
    {values : List Alpha} (absent : separator ∉ values) :
    pieces (· == separator) values = [values] := by
  refine pieces_of_forall_not fun value present => ?_
  rw [beq_eq_false_iff_ne]
  rintro rfl
  exact absent present

theorem pieces_append_separator {Alpha : Type} [DecidableEq Alpha] {separator : Alpha}
    {first : List Alpha} (absent : separator ∉ first) (rest : List Alpha) :
    pieces (· == separator) (first ++ separator :: rest) =
      first :: pieces (· == separator) rest := by
  rw [pieces_append_cons (by simp), pieces_of_not_mem absent, List.singleton_append]

theorem pieces_unpieces {Alpha : Type} [DecidableEq Alpha] {separator : Alpha}
    {parts : List (List Alpha)} (nonempty : parts ≠ [])
    (absent : ∀ part ∈ parts, separator ∉ part) :
    pieces (· == separator) (unpieces separator parts) = parts := by
  induction parts with
  | nil => contradiction
  | cons first others inductionHypothesis =>
      cases others with
      | nil => exact pieces_of_not_mem (absent first (by simp))
      | cons second others =>
          rw [unpieces_cons separator first (by simp),
            pieces_append_separator (absent first (by simp)),
            inductionHypothesis (by simp) fun part inOthers => absent part (by simp [inOthers])]

theorem not_mem_of_mem_pieces {Alpha : Type} [DecidableEq Alpha] {separator : Alpha}
    {values part : List Alpha} (isPart : part ∈ pieces (· == separator) values) :
    separator ∉ part := by
  induction values generalizing part with
  | nil =>
      obtain rfl : part = [] := by simpa using isPart
      simp
  | cons value rest inductionHypothesis =>
      by_cases same : value = separator
      · subst same
        rw [pieces_cons_separator (by simp), List.mem_cons] at isPart
        rcases isPart with rfl | inRest
        · simp
        · exact inductionHypothesis inRest
      · cases cut : pieces (· == separator) rest with
        | nil => exact absurd cut (pieces_ne_nil _ _)
        | cons first others =>
            rw [pieces_cons (by simpa using same) cut, List.mem_cons] at isPart
            rw [cut] at inductionHypothesis
            rcases isPart with rfl | inOthers
            · have absent : separator ∉ first := inductionHypothesis (by simp)
              simp [Ne.symm same, absent]
            · exact inductionHypothesis (by simp [inOthers])

theorem mem_of_mem_pieces {Alpha : Type} {separates : Alpha → Bool} {value : Alpha}
    {values part : List Alpha} (isPart : part ∈ pieces separates values)
    (present : value ∈ part) : value ∈ values := by
  induction values generalizing part with
  | nil =>
      obtain rfl : part = [] := by simpa using isPart
      contradiction
  | cons first rest inductionHypothesis =>
      cases separator : separates first with
      | true =>
          rw [pieces_cons_separator separator, List.mem_cons] at isPart
          rcases isPart with rfl | inRest
          · contradiction
          · exact List.mem_cons_of_mem _ (inductionHypothesis inRest present)
      | false =>
          obtain ⟨piece, others, cut⟩ := List.exists_cons_of_ne_nil (pieces_ne_nil separates rest)
          rw [pieces_cons separator cut, List.mem_cons] at isPart
          rw [cut] at inductionHypothesis
          rcases isPart with rfl | inOthers
          · rcases List.mem_cons.mp present with rfl | inPiece
            · exact List.mem_cons_self
            · exact List.mem_cons_of_mem _ (inductionHypothesis List.mem_cons_self inPiece)
          · exact List.mem_cons_of_mem _
              (inductionHypothesis (List.mem_cons_of_mem _ inOthers) present)

theorem exists_mem_pieces {Alpha : Type} {separates : Alpha → Bool} {value : Alpha}
    {values : List Alpha} (present : value ∈ values) (inside : separates value = false) :
    ∃ part ∈ pieces separates values, value ∈ part := by
  induction values with
  | nil => contradiction
  | cons first rest inductionHypothesis =>
      cases separator : separates first with
      | true =>
          rw [pieces_cons_separator separator]
          rcases List.mem_cons.mp present with rfl | behind
          · rw [inside] at separator
            contradiction
          · obtain ⟨part, isPart, inPart⟩ := inductionHypothesis behind
            exact ⟨part, List.mem_cons_of_mem _ isPart, inPart⟩
      | false =>
          obtain ⟨piece, others, cut⟩ := List.exists_cons_of_ne_nil (pieces_ne_nil separates rest)
          rw [pieces_cons separator cut]
          rw [cut] at inductionHypothesis
          rcases List.mem_cons.mp present with rfl | behind
          · exact ⟨_, List.mem_cons_self, List.mem_cons_self⟩
          · obtain ⟨part, isPart, inPart⟩ := inductionHypothesis behind
            rcases List.mem_cons.mp isPart with rfl | inOthers
            · exact ⟨_, List.mem_cons_self, List.mem_cons_of_mem _ inPart⟩
            · exact ⟨part, List.mem_cons_of_mem _ inOthers, inPart⟩

theorem head?_unpieces_cons {Alpha : Type} {separator value : Alpha} {first : List Alpha}
    {others : List (List Alpha)}
    (isHead : (unpieces separator (first :: others)).head? = some value) :
    first.head? = some value ∨ value = separator := by
  cases others with
  | nil => exact .inl isHead
  | cons second others =>
      rw [unpieces_cons separator first (by simp)] at isHead
      cases first with
      | nil => exact .inr (by simpa using isHead.symm)
      | cons own rest => exact .inl isHead

end Text

namespace Path

@[simp]
theorem components_nil : components [] = [[]] := rfl

@[simp]
theorem components_slash_cons (text : List Char) :
    components ('/' :: text) = [] :: components text :=
  Text.pieces_cons_separator (by simp) text

@[simp]
theorem significant_nil_cons (names : List Name) :
    significant ([] :: names) = significant names := by
  simp [significant]

theorem mem_significant_iff {names : List Name} {name : Name} :
    name ∈ significant names ↔ name ∈ names ∧ name ≠ [] ∧ name ≠ Name.here := by
  simp [significant]

theorem noSlash_of_mem_components {text : List Char} {name : Name}
    (present : name ∈ components text) : '/' ∉ name :=
  Text.not_mem_of_mem_pieces present

theorem proper_of_mem_ofText {text : List Char} {name : Name}
    (present : name ∈ (ofText text).names) : name.Proper := by
  obtain ⟨component, nonempty, notHere⟩ := mem_significant_iff.mp present
  exact ⟨nonempty, notHere, noSlash_of_mem_components component⟩

theorem mem_of_mem_name {text : List Char} {name : Name} {character : Char}
    (isName : name ∈ (ofText text).names) (present : character ∈ name) : character ∈ text :=
  Text.mem_of_mem_pieces (mem_significant_iff.mp isName).1 present

theorem mem_names_join {base path : Path} {name : Name} (present : name ∈ (base.join path).names) :
    name ∈ base.names ∨ name ∈ path.names := by
  unfold join at present
  split at present
  next => exact List.mem_append.mp present
  next => exact .inr present

theorem join_of_isAbsolute {path : Path} (absolute : path.isAbsolute = true) (base : Path) :
    base.join path = path := by
  obtain ⟨anchor, names⟩ := path
  cases anchor with
  | relative => simp [isAbsolute] at absolute
  | root => rfl
  | doubleRoot => rfl

theorem significant_eq_self {names : List Name} (proper : ∀ name ∈ names, name.Proper) :
    significant names = names := by
  rw [significant, List.filter_eq_self]
  intro name present
  simp [(proper name present).nonempty, (proper name present).notHere]

theorem significant_components_unpieces {names : List Name}
    (proper : ∀ name ∈ names, name.Proper) :
    significant (components (Text.unpieces '/' names)) = names := by
  by_cases none : names = []
  · subst none
    rfl
  · rw [components, Text.pieces_unpieces none fun name present => (proper name present).noSlash,
      significant_eq_self proper]

theorem significant_components_text {path : Path} (proper : ∀ name ∈ path.names, name.Proper) :
    significant (components path.text) = path.names := by
  obtain ⟨anchor, names⟩ := path
  cases anchor with
  | relative =>
      cases names with
      | nil => rfl
      | cons name names => exact significant_components_unpieces proper
  | root => simpa [text, Anchor.text] using significant_components_unpieces proper
  | doubleRoot => simpa [text, Anchor.text] using significant_components_unpieces proper

theorem components_text_of_isAbsolute {path : Path} (absolute : path.isAbsolute = true)
    (noSlash : ∀ name ∈ path.names, '/' ∉ name) :
    ∃ count, components path.text = List.replicate count [] ++ path.names := by
  obtain ⟨anchor, names⟩ := path
  have spelled : ∃ count, components (Text.unpieces '/' names) =
      List.replicate count [] ++ names := by
    by_cases none : names = []
    · exact ⟨1, by rw [none]; rfl⟩
    · exact ⟨0, Text.pieces_unpieces none noSlash⟩
  obtain ⟨count, spelled⟩ := spelled
  cases anchor with
  | relative => simp [isAbsolute] at absolute
  | root => exact ⟨count + 1, by simp [text, Anchor.text, spelled, List.replicate_succ]⟩
  | doubleRoot => exact ⟨count + 2, by simp [text, Anchor.text, spelled, List.replicate_succ]⟩

theorem ofText_text_ne_relative {path : Path} (absolute : path.isAbsolute = true) :
    Anchor.ofText path.text ≠ .relative := by
  obtain ⟨anchor, names⟩ := path
  have starts (rest : List Char) : Anchor.ofText ('/' :: rest) ≠ .relative := by
    unfold Anchor.ofText
    split <;> simp_all
  cases anchor with
  | relative => simp [isAbsolute] at absolute
  | root => exact starts _
  | doubleRoot => exact starts _

theorem pushLexically_of_ne {name : Name} (notAbove : name ≠ Name.above) (anchored : Bool)
    (reached : List Name) : pushLexically anchored reached name = name :: reached := by
  simp [pushLexically, notAbove]

/-- Below an anchor no `..` is ever kept. -/
theorem not_above_of_mem_foldl_pushLexically {names reached : List Name}
    (noAbove : Name.above ∉ reached) : Name.above ∉ names.foldl (pushLexically true) reached := by
  induction names generalizing reached with
  | nil => exact noAbove
  | cons name names inductionHypothesis =>
      apply inductionHypothesis
      unfold pushLexically
      split
      next =>
        cases reached with
        | nil => simp
        | cons last before =>
            rw [List.mem_cons, not_or] at noAbove
            simpa [Ne.symm noAbove.1] using noAbove.2
      next notAbove => simpa [Ne.symm notAbove] using noAbove

theorem mem_of_mem_foldl_pushLexically {anchored : Bool} {names reached : List Name}
    {name : Name} (kept : name ∈ names.foldl (pushLexically anchored) reached) :
    name ∈ names ∨ name ∈ reached := by
  induction names generalizing reached with
  | nil => exact .inr kept
  | cons next names inductionHypothesis =>
      rcases inductionHypothesis kept with inNames | inPushed
      · exact .inl (by simp [inNames])
      · unfold pushLexically at inPushed
        grind

theorem foldl_pushLexically_of_not_above {anchored : Bool} {names reached : List Name}
    (noAbove : Name.above ∉ names) :
    names.foldl (pushLexically anchored) reached = names.reverse ++ reached := by
  induction names generalizing reached with
  | nil => rfl
  | cons name names inductionHypothesis =>
      rw [List.mem_cons, not_or] at noAbove
      rw [List.foldl_cons, pushLexically_of_ne (Ne.symm noAbove.1),
        inductionHypothesis noAbove.2]
      simp

theorem normal_eq_self {path : Path} (noAbove : Name.above ∉ path.names) :
    path.normal = path := by
  rw [normal, foldl_pushLexically_of_not_above noAbove]
  simp

theorem above_not_mem_normal {path : Path} (absolute : path.isAbsolute = true) :
    Name.above ∉ path.normal.names := by
  have noAbove : Name.above ∉ path.names.foldl (pushLexically true) [] :=
    not_above_of_mem_foldl_pushLexically (by simp)
  simpa [normal, absolute] using noAbove

theorem mem_of_mem_normal {path : Path} {name : Name} (kept : name ∈ path.normal.names) :
    name ∈ path.names := by
  rw [normal, List.mem_reverse] at kept
  simpa using mem_of_mem_foldl_pushLexically kept

theorem normal_normal {path : Path} (absolute : path.isAbsolute = true) :
    path.normal.normal = path.normal :=
  normal_eq_self (above_not_mem_normal absolute)

theorem normal_child {path : Path} {name : Name} (notAbove : name ≠ Name.above) :
    (path.child name).normal = path.normal.child name := by
  simp [normal, child, isAbsolute, pushLexically_of_ne notAbove]

theorem normal_child_above {path : Path} (absolute : path.isAbsolute = true) :
    (path.child Name.above).normal = path.normal.parent := by
  have noAbove := above_not_mem_normal absolute
  have stillAbsolute : (path.child Name.above).isAbsolute = true := absolute
  simp only [normal, stillAbsolute, absolute, parent] at noAbove ⊢
  simp only [child, List.foldl_append, List.foldl_cons, List.foldl_nil]
  cases reached : path.names.foldl (pushLexically true) [] with
  | nil => simp [pushLexically]
  | cons last before =>
      rw [reached, List.mem_reverse, List.mem_cons, not_or] at noAbove
      simp [pushLexically, Ne.symm noAbove.1]

theorem cons_ancestors (path : Path) :
    path :: path.ancestors =
      (List.range (path.names.length + 1)).reverse.map fun length =>
        { path with names := path.names.take length } := by
  rw [List.range_succ, List.reverse_append]
  simp [ancestors]

theorem ancestors_eq_cons {path : Path} (nonempty : path.names ≠ []) :
    path.ancestors = path.parent :: path.parent.ancestors := by
  have positive := List.length_pos_iff.mpr nonempty
  have lengths : path.parent.names.length + 1 = path.names.length := by
    rw [parent, List.length_dropLast]
    omega
  rw [cons_ancestors, lengths, ancestors]
  apply List.map_congr_left
  intro length inRange
  rw [List.mem_reverse, List.mem_range] at inRange
  rw [parent, List.dropLast_eq_take, List.take_take, Nat.min_eq_left (by omega)]

theorem prefix_of_mem_cons_ancestors {path above : Path}
    (isAbove : above ∈ path :: path.ancestors) :
    ∃ names, names <+: path.names ∧ above = { path with names } := by
  rw [cons_ancestors] at isAbove
  obtain ⟨length, -, rfl⟩ := List.mem_map.mp isAbove
  exact ⟨_, List.take_prefix length path.names, rfl⟩

theorem mem_cons_ancestors_iff {path above : Path} :
    above ∈ path :: path.ancestors ↔ above.anchor = path.anchor ∧ above.names <+: path.names := by
  constructor
  · intro isAbove
    obtain ⟨names, inFront, rfl⟩ := prefix_of_mem_cons_ancestors isAbove
    exact ⟨rfl, inFront⟩
  · intro ⟨sameAnchor, inFront⟩
    rw [cons_ancestors]
    refine List.mem_map.mpr ⟨above.names.length, ?_, ?_⟩
    · rw [List.mem_reverse, List.mem_range]
      have bound := inFront.length_le
      omega
    · rw [← List.prefix_iff_eq_take.mp inFront, ← sameAnchor]

theorem eq_append_of_namesBelow? {path directory : Path} {names : List Name}
    (isBelow : directory.namesBelow? path = some names) :
    path.names = directory.names ++ names := by
  unfold namesBelow? at isBelow
  split at isBelow
  next related =>
    cases isBelow
    exact (List.prefix_iff_eq_append.mp related.2).symm
  next => contradiction

theorem prefix_parent {path : Path} {names : List Name} (inFront : names <+: path.names)
    (shorter : names ≠ path.names) : names <+: path.parent.names := by
  obtain ⟨rest, split⟩ := inFront
  have more : rest ≠ [] := by
    rintro rfl
    exact shorter (by simpa using split)
  rw [parent, ← split, List.dropLast_append_of_ne_nil more]
  exact List.prefix_append _ _

/-- An absolute path of proper names, which its text spells unmistakably. -/
structure IsSpelled (path : Path) : Prop where
  absolute : path.isAbsolute = true
  proper : ∀ name ∈ path.names, name.Proper

theorem anchorOfText_of_isSpelled {path : Path} (spelled : path.IsSpelled) :
    Anchor.ofText path.text = path.anchor := by
  obtain ⟨anchor, names⟩ := path
  have startsOtherwise : ∀ rest, Text.unpieces '/' names ≠ '/' :: rest := by
    intro rest same
    cases names with
    | nil => contradiction
    | cons name names =>
        have proper := spelled.proper name (by simp)
        obtain ⟨first, others, rfl⟩ := List.exists_cons_of_ne_nil proper.nonempty
        obtain rfl : first = '/' := by
          cases names with
          | nil => exact (List.cons.inj same).1
          | cons => exact (List.cons.inj same).1
        exact proper.noSlash (by simp)
  cases anchor with
  | relative => simpa [isAbsolute] using spelled.absolute
  | root =>
      dsimp only [text, Anchor.text, List.singleton_append]
      unfold Anchor.ofText
      split <;> grind
  | doubleRoot =>
      dsimp only [text, Anchor.text, List.cons_append, List.nil_append]
      unfold Anchor.ofText
      split <;> grind

namespace IsSpelled

variable {path : Path}

theorem ofText_text (spelled : path.IsSpelled) : ofText path.text = path := by
  rw [ofText, anchorOfText_of_isSpelled spelled, significant_components_text spelled.proper]

theorem of_prefix {names : List Name} (spelled : path.IsSpelled) (inFront : names <+: path.names) :
    IsSpelled { path with names } where
  absolute := spelled.absolute
  proper := fun name present => spelled.proper name (inFront.subset present)

theorem parent (spelled : path.IsSpelled) : path.parent.IsSpelled :=
  spelled.of_prefix (List.dropLast_prefix path.names)

theorem cons_ancestors (spelled : path.IsSpelled) :
    ∀ above ∈ path :: path.ancestors, above.IsSpelled := by
  intro above isAbove
  obtain ⟨names, inFront, rfl⟩ := prefix_of_mem_cons_ancestors isAbove
  exact spelled.of_prefix inFront

theorem normal (spelled : path.IsSpelled) : path.normal.IsSpelled where
  absolute := spelled.absolute
  proper := fun name present => spelled.proper name (mem_of_mem_normal present)

theorem join_ofText (spelled : path.IsSpelled) (text : List Char) :
    (path.join (ofText text)).IsSpelled := by
  unfold join
  split
  next isRelative =>
    refine ⟨spelled.absolute, fun name present => ?_⟩
    rcases List.mem_append.mp present with inPath | inText
    · exact spelled.proper name inPath
    · exact proper_of_mem_ofText inText
  next isAbsolute =>
    exact ⟨by simpa [Path.isAbsolute] using isAbsolute, fun name => proper_of_mem_ofText⟩

end IsSpelled

end Path

end IgnoreRules
