import SyntaxHighlight.Proofs.Tree.Content
import SyntaxHighlight.Tree.Html

/-!
HTML read back. Cut at its angle brackets, it has a tag for each start and each end of a scope,
nested as the scopes are, and what is not within tags is the text of the tree, escaped.
-/
namespace SyntaxHighlight.Html

/-- The characters that are written as entities. -/
def isMarkup (c : Char) : Bool := ['&', '<', '>', '\x22', '\x27'].contains c

def Unmarked (s : String) : Prop := ∀ c ∈ s.toList, isMarkup c = false

instance (s : String) : Decidable (Unmarked s) :=
  decidable_of_iff (s.toList.all fun c ↦ !isMarkup c) (by simp [Unmarked])

/-- What a cut at angle brackets leaves: a character, or what stands between two brackets. -/
inductive Segment where
  | char (c : Char)
  | tag (inside : List Char)
deriving DecidableEq, Repr

/-- The rest of a text, cut at angle brackets, with what has been read of a tag if one is open. None
if the brackets do not come in pairs. -/
def cutWithin : Option (List Char) → List Char → Option (List Segment)
  | none, [] => some []
  | some _, [] => none
  | none, c :: cs =>
    if c = '<' then cutWithin (some []) cs
    else if c = '>' then none
    else (cutWithin none cs).map (.char c :: ·)
  | some inside, c :: cs =>
    if c = '>' then (cutWithin none cs).map (.tag inside :: ·)
    else if c = '<' then none
    else cutWithin (some (inside ++ [c])) cs

def cut (html : String) : Option (List Segment) := cutWithin none html.toList

/-- The tags that a tree is written with. -/
inductive Tag where
  | opens (className : List Char)
  | closes
deriving DecidableEq, Repr

def spanStart : List Char := ['s', 'p', 'a', 'n', ' ', 'c', 'l', 'a', 's', 's', '=', '\x22']

def spanEnd : List Char := ['/', 's', 'p', 'a', 'n']

def Tag.inside : Tag → List Char
  | .opens className => spanStart ++ (className ++ ['\x22'])
  | .closes => spanEnd

/-- A class that is quoted, with nothing after the quote. -/
def readClass? : List Char → Option (List Char)
  | [] => none
  | ['\x22'] => some []
  | c :: cs => if c = '\x22' then none else (readClass? cs).map (c :: ·)

/-- The tag that stands between two brackets, if it is a closing one or has a class and no more. -/
def readTag? (inside : List Char) : Option Tag :=
  if inside = spanEnd then some .closes
  else if spanStart <+: inside then (readClass? (inside.drop spanStart.length)).map .opens
  else none

/-- The tags among segments. None if one of them is something else than a tag should be. -/
def readTags? : List Segment → Option (List Tag)
  | [] => some []
  | .char _ :: segments => readTags? segments
  | .tag inside :: segments => do
    let tag ← readTag? inside
    let tags ← readTags? segments
    pure (tag :: tags)

def textOf (segments : List Segment) : List Char :=
  segments.filterMap fun
    | .char c => some c
    | .tag _ => none

/-- A text with its entities decoded. -/
def unescape : List Char → List Char
  | '&' :: 'a' :: 'm' :: 'p' :: ';' :: cs => '&' :: unescape cs
  | '&' :: 'l' :: 't' :: ';' :: cs => '<' :: unescape cs
  | '&' :: 'g' :: 't' :: ';' :: cs => '>' :: unescape cs
  | '&' :: 'q' :: 'u' :: 'o' :: 't' :: ';' :: cs => '\x22' :: unescape cs
  | '&' :: '#' :: 'x' :: '2' :: '7' :: ';' :: cs => '\x27' :: unescape cs
  | c :: cs => c :: unescape cs
  | [] => []

/-- A scope with its class, and the scopes within it. -/
inductive Outline where
  | scope (className : List Char) (inner : List Outline)
deriving Repr

/-- The scopes that tags enclose, if every tag that opens is closed: `before` are those that the
innermost open scope has so far, the latest first, and `around` are the open ones, each with what
came before it. -/
def nest? : List (List Char × List Outline) → List Outline → List Tag → Option (List Outline)
  | [], before, [] => some before.reverse
  | _ :: _, _, [] => none
  | around, before, .opens className :: tags => nest? ((className, before) :: around) [] tags
  | [], _, .closes :: _ => none
  | (className, outer) :: around, before, .closes :: tags =>
    nest? around (.scope className before.reverse :: outer) tags

def tag? (classPrefix : String) : TreeEvent → Option Tag
  | .opens (some scope) => some (.opens (scopeClass classPrefix scope).toList)
  | .closes (some _) => some .closes
  | .opens none | .closes none | .text _ => none

mutual

/-- The scopes of a tree that have names, as they are nested. -/
def outline (classPrefix : String) : Tree → List Outline
  | .text _ => []
  | .scope (some scope) children =>
    [.scope (scopeClass classPrefix scope).toList (outlineAll classPrefix children)]
  | .scope none children => outlineAll classPrefix children

def outlineAll (classPrefix : String) : List Tree → List Outline
  | [] => []
  | t :: ts => outline classPrefix t ++ outlineAll classPrefix ts

end

section Classes

variable {classPrefix scope : String} {cs : List Char}

theorem isMarkup_fields {separator : Char} (h : ∀ c ∈ cs, isMarkup c = false) :
    ∀ part ∈ Text.fields separator cs, ∀ c ∈ part, isMarkup c = false := by
  induction cs with
  | nil => simp [Text.fields]
  | cons d cs ih =>
    obtain ⟨hd, hcs⟩ := List.forall_mem_cons.1 h
    have hparts := ih hcs
    rw [Text.fields]
    split
    · exact List.forall_mem_cons.2 ⟨List.forall_mem_nil _, hparts⟩
    · split
      · rename_i part parts hfields
        rw [hfields] at hparts
        obtain ⟨hpart, hparts⟩ := List.forall_mem_cons.1 hparts
        exact List.forall_mem_cons.2 ⟨List.forall_mem_cons.2 ⟨hd, hpart⟩, hparts⟩
      · simpa using hd

theorem isMarkup_underscored {parts : List (List Char)} (n : Nat)
    (h : ∀ part ∈ parts, ∀ c ∈ part, isMarkup c = false) :
    ∀ c ∈ underscored n parts, isMarkup c = false := by
  induction parts generalizing n with
  | nil => exact List.forall_mem_nil _
  | cons part parts ih =>
    obtain ⟨hpart, hparts⟩ := List.forall_mem_cons.1 h
    intro c hc
    simp only [underscored, List.mem_cons, List.mem_append, List.cons_append] at hc
    obtain rfl | (hc | hc) | hc := hc
    · rfl
    · exact hpart c hc
    · rw [List.eq_of_mem_replicate hc]
      rfl
    · exact ih (n + 1) hparts c hc

/-- Nothing has to be escaped in the class of a scope either. -/
theorem isMarkup_scopeClass (hlead : Unmarked classPrefix) (hscope : Unmarked scope) :
    Unmarked (scopeClass classPrefix scope) := by
  rw [scopeClass]
  split
  · rename_i language hlanguage
    intro c hc
    rw [String.toList_append, List.mem_append, String.toList_ofList] at hc
    obtain hc | hc := hc
    · exact (by decide : Unmarked "language-") c hc
    · rw [languageOf?] at hlanguage
      cases hmark : "language:".toList.isPrefixOf scope.toList with
      | false =>
        rw [hmark] at hlanguage
        cases hlanguage
      | true =>
        rw [hmark] at hlanguage
        cases hlanguage
        rw [String.toList_ofList] at hc
        exact hscope c (List.mem_of_mem_drop hc)
  · have hfields : ∀ part ∈ Text.fields '.' scope.toList, ∀ c ∈ part, isMarkup c = false :=
      isMarkup_fields hscope
    split
    · rename_i first parts heq
      rw [heq] at hfields
      obtain ⟨hfirst, hparts⟩ := List.forall_mem_cons.1 hfields
      intro c hc
      rw [String.toList_append, List.mem_append, String.toList_ofList, List.mem_append] at hc
      obtain hc | hc | hc := hc
      · exact hlead c hc
      · exact hfirst c hc
      · exact isMarkup_underscored 1 hparts c hc
    · exact hlead

end Classes

section Text

theorem isMarkup_eq_false {c : Char} (h : isMarkup c = false) :
    c ≠ '&' ∧ c ≠ '<' ∧ c ≠ '>' ∧ c ≠ '\x22' ∧ c ≠ '\x27' := by
  simpa [isMarkup] using h

/-- An ampersand that comes from the text is decoded before what follows it is looked at. -/
theorem unescape_escapeChar (c : Char) (cs : List Char) :
    unescape (escapeChar c ++ cs) = c :: unescape cs := by
  by_cases hc : isMarkup c
  · simp only [isMarkup, List.contains_iff_mem, List.mem_cons, List.not_mem_nil, or_false] at hc
    obtain rfl | rfl | rfl | rfl | rfl := hc <;> rfl
  · obtain ⟨hamp, hlt, hgt, hquote, happos⟩ := isMarkup_eq_false (by simpa using hc)
    rw [escapeChar, if_neg hamp, if_neg hlt, if_neg hgt, if_neg hquote, if_neg happos,
      List.singleton_append, unescape]
    all_goals
      intros
      contradiction

theorem unescape_flatMap (s cs : List Char) :
    unescape (s.flatMap escapeChar ++ cs) = s ++ unescape cs := by
  induction s with
  | nil => rfl
  | cons c s ih =>
    rw [List.flatMap_cons, List.append_assoc, unescape_escapeChar, ih, List.cons_append]

/-- Text never produces a bracket. -/
theorem bracket_notMem_escapeChar (c : Char) : '<' ∉ escapeChar c ∧ '>' ∉ escapeChar c := by
  by_cases hc : isMarkup c
  · simp only [isMarkup, List.contains_iff_mem, List.mem_cons, List.not_mem_nil, or_false] at hc
    obtain rfl | rfl | rfl | rfl | rfl := hc <;> decide
  · obtain ⟨hamp, hlt, hgt, hquote, happos⟩ := isMarkup_eq_false (by simpa using hc)
    rw [escapeChar, if_neg hamp, if_neg hlt, if_neg hgt, if_neg hquote, if_neg happos]
    exact ⟨by simpa using Ne.symm hlt, by simpa using Ne.symm hgt⟩

end Text

section Cut

variable {inside : List Char}

theorem cutWithin_append {s : List Char} (hlt : '<' ∉ s) (hgt : '>' ∉ s) (cs : List Char) :
    cutWithin none (s ++ cs) = (cutWithin none cs).map (s.map .char ++ ·) := by
  induction s with
  | nil => simp
  | cons c s ih =>
    obtain ⟨hlt, hlt'⟩ := not_or.1 (mt List.mem_cons.2 hlt)
    obtain ⟨hgt, hgt'⟩ := not_or.1 (mt List.mem_cons.2 hgt)
    rw [List.cons_append, cutWithin, if_neg (Ne.symm hlt), if_neg (Ne.symm hgt), ih hlt' hgt',
      Option.map_map]
    rfl

theorem cutWithin_inside (hlt : '<' ∉ inside) (hgt : '>' ∉ inside) (before cs : List Char) :
    cutWithin (some before) (inside ++ '>' :: cs) =
      (cutWithin none cs).map (.tag (before ++ inside) :: ·) := by
  induction inside generalizing before with
  | nil => simp [cutWithin]
  | cons c inside ih =>
    obtain ⟨hlt, hlt'⟩ := not_or.1 (mt List.mem_cons.2 hlt)
    obtain ⟨hgt, hgt'⟩ := not_or.1 (mt List.mem_cons.2 hgt)
    rw [List.cons_append, cutWithin, if_neg (Ne.symm hgt), if_neg (Ne.symm hlt), ih hlt' hgt',
      List.append_assoc, List.singleton_append]

theorem cutWithin_tag (hlt : '<' ∉ inside) (hgt : '>' ∉ inside) (cs : List Char) :
    cutWithin none ('<' :: (inside ++ '>' :: cs)) =
      (cutWithin none cs).map (.tag inside :: ·) := by
  rw [cutWithin, if_pos rfl, cutWithin_inside hlt hgt, List.nil_append]

end Cut

section Tags

theorem readClass?_append {className : List Char} (h : ∀ c ∈ className, isMarkup c = false) :
    readClass? (className ++ ['\x22']) = some className := by
  induction className with
  | nil => rfl
  | cons c className ih =>
    obtain ⟨hc, hrest⟩ := List.forall_mem_cons.1 h
    obtain ⟨-, -, -, hquote, -⟩ := isMarkup_eq_false hc
    rw [List.cons_append, readClass?, if_neg hquote, ih hrest, Option.map_some]
    exact fun heq ↦ absurd heq hquote

/-- The class of a tag that opens has nothing in it that would have to be escaped. -/
def Tag.Plain : Tag → Prop
  | .opens className => ∀ c ∈ className, isMarkup c = false
  | .closes => True

theorem readTag?_inside {tag : Tag} (h : tag.Plain) : readTag? tag.inside = some tag := by
  cases tag with
  | closes => rfl
  | opens className =>
    rw [readTag?, if_neg nofun, Tag.inside, if_pos (List.prefix_append _ _), List.drop_left,
      readClass?_append h, Option.map_some]

theorem Tag.Plain.bracket_notMem {tag : Tag} (h : tag.Plain) :
    '<' ∉ tag.inside ∧ '>' ∉ tag.inside := by
  cases tag with
  | closes => decide
  | opens className =>
    have hclass : ∀ c ∈ className, c ≠ '<' ∧ c ≠ '>' := fun c hc ↦
      ⟨(isMarkup_eq_false (h c hc)).2.1, (isMarkup_eq_false (h c hc)).2.2.1⟩
    have hstart : '<' ∉ spanStart ∧ '>' ∉ spanStart := by decide
    simp only [Tag.inside, List.mem_append, List.mem_singleton, not_or]
    exact ⟨⟨hstart.1, fun hc ↦ (hclass _ hc).1 rfl, by decide⟩,
      hstart.2, fun hc ↦ (hclass _ hc).2 rfl, by decide⟩

end Tags

section Events

variable {classPrefix : String} {event : TreeEvent} {events : List TreeEvent}

/-- The tags of an event need no escaping. -/
def Clear (classPrefix : String) (event : TreeEvent) : Prop :=
  ∀ tag, tag? classPrefix event = some tag → tag.Plain

theorem Clear.of_unmarked (hlead : Unmarked classPrefix)
    (hscope : ∀ scope, event = .opens (some scope) → Unmarked scope) :
    Clear classPrefix event := by
  intro tag htag
  match event, htag with
  | .opens (some scope), rfl => exact isMarkup_scopeClass hlead (hscope scope rfl)
  | .closes (some _), rfl => trivial

/-- What an event of a walk leaves when it is written and cut. -/
def segmentsOf (classPrefix : String) : TreeEvent → List Segment
  | .text s => (s.toList.flatMap escapeChar).map .char
  | event => (tag? classPrefix event).toList.map fun tag ↦ .tag tag.inside

theorem toList_piece_of_tag {tag : Tag} (h : tag? classPrefix event = some tag) :
    (piece classPrefix event).toList = '<' :: (tag.inside ++ ['>']) ∧
      segmentsOf classPrefix event = [.tag tag.inside] := by
  match event, h with
  | .opens (some scope), rfl => simp [piece, Tag.inside, spanStart, segmentsOf, tag?]
  | .closes (some scope), rfl => simp [piece, Tag.inside, spanEnd, segmentsOf, tag?]

theorem toList_piece_of_no_tag (h : tag? classPrefix event = none) :
    (piece classPrefix event).toList = event.written.toList.flatMap escapeChar ∧
      segmentsOf classPrefix event = (event.written.toList.flatMap escapeChar).map .char := by
  match event with
  | .text s => exact ⟨String.toList_ofList, rfl⟩
  | .opens none | .closes none => exact ⟨rfl, rfl⟩

theorem written_of_tag {tag : Tag} (h : tag? classPrefix event = some tag) :
    event.written = "" := by
  match event, h with
  | .opens (some _), _ | .closes (some _), _ => rfl

theorem cutWithin_piece (h : Clear classPrefix event) (cs : List Char) :
    cutWithin none ((piece classPrefix event).toList ++ cs) =
      (cutWithin none cs).map (segmentsOf classPrefix event ++ ·) := by
  cases htag : tag? classPrefix event with
  | some tag =>
    obtain ⟨hpiece, hsegments⟩ := toList_piece_of_tag htag
    obtain ⟨hlt, hgt⟩ := (h tag htag).bracket_notMem
    rw [hpiece, hsegments, List.cons_append, List.append_assoc, List.singleton_append,
      cutWithin_tag hlt hgt]
    rfl
  | none =>
    obtain ⟨hpiece, hsegments⟩ := toList_piece_of_no_tag htag
    rw [hpiece, hsegments, cutWithin_append]
    all_goals
      rw [List.mem_flatMap]
      rintro ⟨c, -, hc⟩
    · exact (bracket_notMem_escapeChar c).1 hc
    · exact (bracket_notMem_escapeChar c).2 hc

theorem cutWithin_pieces (h : ∀ event ∈ events, Clear classPrefix event) :
    cutWithin none (String.join (events.map (piece classPrefix))).toList =
      some (events.flatMap (segmentsOf classPrefix)) := by
  induction events with
  | nil => rfl
  | cons event events ih =>
    obtain ⟨hevent, hevents⟩ := List.forall_mem_cons.1 h
    rw [List.map_cons, String.join_cons, String.toList_append, cutWithin_piece hevent, ih hevents,
      List.flatMap_cons, Option.map_some]

theorem readTags?_chars (cs : List Char) (segments : List Segment) :
    readTags? (cs.map .char ++ segments) = readTags? segments := by
  induction cs with
  | nil => rfl
  | cons c cs ih => exact ih

theorem readTags?_segmentsOf (h : ∀ event ∈ events, Clear classPrefix event) :
    readTags? (events.flatMap (segmentsOf classPrefix)) =
      some (events.filterMap (tag? classPrefix)) := by
  induction events with
  | nil => rfl
  | cons event events ih =>
    obtain ⟨hevent, hevents⟩ := List.forall_mem_cons.1 h
    rw [List.flatMap_cons, List.filterMap_cons]
    cases htag : tag? classPrefix event with
    | some tag =>
      rw [(toList_piece_of_tag htag).2, List.singleton_append, readTags?,
        readTag?_inside (hevent tag htag), ih hevents]
      rfl
    | none => rw [(toList_piece_of_no_tag htag).2, readTags?_chars, ih hevents]

theorem textOf_chars (cs : List Char) : textOf (cs.map .char) = cs := by
  rw [textOf, List.filterMap_map]
  exact List.filterMap_some

theorem textOf_segmentsOf (events : List TreeEvent) :
    textOf (events.flatMap (segmentsOf classPrefix)) =
      (String.join (events.map TreeEvent.written)).toList.flatMap escapeChar := by
  induction events with
  | nil => rfl
  | cons event events ih =>
    have hevent : textOf (segmentsOf classPrefix event) =
        event.written.toList.flatMap escapeChar := by
      cases htag : tag? classPrefix event with
      | some tag => rw [(toList_piece_of_tag htag).2, written_of_tag htag]; rfl
      | none => rw [(toList_piece_of_no_tag htag).2, textOf_chars]
    rw [List.flatMap_cons, textOf, List.filterMap_append, ← textOf, ← textOf, ih, hevent,
      List.map_cons, String.join_cons, String.toList_append, List.flatMap_append]

end Events

section Nesting

variable (classPrefix : String)

mutual

theorem nest?_walk : ∀ t : Tree, ∀ around before tags,
    nest? around before (t.walk.filterMap (tag? classPrefix) ++ tags) =
      nest? around ((outline classPrefix t).reverse ++ before) tags
  | .text _, _, _, _ => rfl
  | .scope none children, around, before, tags => by
    rw [Tree.walk, List.filterMap_cons_none rfl, List.filterMap_append,
      List.filterMap_cons_none rfl, List.filterMap_nil, List.append_nil, outline]
    exact nest?_walkAll children around before tags
  | .scope (some scope) children, around, before, tags => by
    have hopens : tag? classPrefix (.opens (some scope)) =
      some (.opens (scopeClass classPrefix scope).toList) := rfl
    have hcloses : tag? classPrefix (.closes (some scope)) = some .closes := rfl
    rw [Tree.walk, List.filterMap_cons_some hopens, List.filterMap_append,
      List.filterMap_cons_some hcloses, List.filterMap_nil, List.cons_append, List.append_assoc,
      nest?, nest?_walkAll children, List.singleton_append, nest?, List.append_nil,
      List.reverse_reverse, outline, List.reverse_singleton, List.singleton_append]

theorem nest?_walkAll : ∀ ts : List Tree, ∀ around before tags,
    nest? around before ((Tree.walkAll ts).filterMap (tag? classPrefix) ++ tags) =
      nest? around ((outlineAll classPrefix ts).reverse ++ before) tags
  | [], _, _, _ => rfl
  | t :: ts, around, before, tags => by
    rw [Tree.walkAll, List.filterMap_append, List.append_assoc, nest?_walk t, nest?_walkAll ts,
      outlineAll, List.reverse_append, List.append_assoc]

end

end Nesting

/-- The HTML of a tree decodes to it. Cut at its brackets, it has nothing but tags between them;
they are those of the walk, in its order, and nest as the scopes of the tree that have names. The
rest, with its entities decoded, is the text of the tree, whatever the text looks like. -/
theorem render_reads_back (classPrefix : String) (t : Tree) (hlead : Unmarked classPrefix)
    (hscopes : ∀ scope, .opens (some scope) ∈ t.walk → Unmarked scope) :
    ∃ segments tags, cut (render classPrefix t) = some segments ∧
      readTags? segments = some tags ∧
      tags = t.walk.filterMap (tag? classPrefix) ∧
      nest? [] [] tags = some (outline classPrefix t) ∧
      unescape (textOf segments) = t.plainText.toList := by
  have hclear : ∀ event ∈ t.walk, Clear classPrefix event := fun event hevent ↦
    Clear.of_unmarked hlead fun scope heq ↦ hscopes scope (heq ▸ hevent)
  refine ⟨_, _, cutWithin_pieces hclear, readTags?_segmentsOf hclear, rfl, ?_, ?_⟩
  · have h := nest?_walk classPrefix t [] [] []
    rwa [List.append_nil, List.append_nil, nest?, List.reverse_reverse] at h
  · have h := unescape_flatMap (String.join (t.walk.map TreeEvent.written)).toList []
    rw [List.append_nil, unescape, List.append_nil] at h
    rw [textOf_segmentsOf, h, Tree.plainText_eq_join]

/-- A name with dots, a language, a scope without a name, and text that looks like markup. -/
def sample : Tree :=
  .scope none [.text "<b>&amp;", .scope (some "title.class") [.text "\x22",
    .scope none [.scope (some "language:c") [.text "\x27</span>"]], .text "&lt;"]]

theorem sample_reads_back :
    Unmarked "hljs-" ∧
      (∀ scope, .opens (some scope) ∈ sample.walk → Unmarked scope) ∧
      ∃ segments tags, cut (render "hljs-" sample) = some segments ∧
        readTags? segments = some tags ∧
        tags = sample.walk.filterMap (tag? "hljs-") ∧
        nest? [] [] tags = some (outline "hljs-" sample) ∧
        unescape (textOf segments) = sample.plainText.toList := by
  have hlead : Unmarked "hljs-" := by decide
  have hscopes : ∀ scope, .opens (some scope) ∈ sample.walk → Unmarked scope := by
    intro scope hscope
    simp only [sample, Tree.walk, Tree.walkAll, List.nil_append, List.append_nil, List.cons_append,
      List.mem_cons, List.not_mem_nil, or_false, false_or, reduceCtorEq, TreeEvent.opens.injEq,
      Option.some.injEq] at hscope
    obtain rfl | rfl := hscope <;> decide
  exact ⟨hlead, hscopes, render_reads_back "hljs-" sample hlead hscopes⟩

end SyntaxHighlight.Html
