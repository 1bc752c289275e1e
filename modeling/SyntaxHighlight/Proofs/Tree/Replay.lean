import SyntaxHighlight.Tree.Step
import SyntaxHighlight.Proofs.Tree.Events

/-!
The walk over a tree, read off the steps that built it. A step that has no effect leaves no event: a
text that is empty, and the close of a scope where none is open.
-/
namespace SyntaxHighlight

namespace TreeEvent

def ofText (s : String) : List TreeEvent := if s.isEmpty then [] else [.text s]

def ends (names : List String) : List TreeEvent := names.map fun name ↦ .closes (some name)

theorem empty_notMem_ofText (s : String) : .text "" ∉ ofText s := by
  unfold ofText
  split
  · exact List.not_mem_nil
  · rename_i h
    intro hmem
    obtain rfl : "" = s := TreeEvent.text.inj (List.mem_singleton.1 hmem)
    exact h rfl

theorem empty_notMem_ends (names : List String) : .text "" ∉ ends names := by
  simp [ends]

end TreeEvent

namespace TreeStep

open TreeEvent

/-- The names of the open scopes after a step, the innermost first. -/
def leavesOpen (names : List String) : TreeStep → List String
  | .opens scope => scope :: names
  | .closes => names.tail
  | .finalize => []
  | _ => names

mutual

/-- What a step adds to the walk, by the names of the scopes that are open before it. An embedded
tree is built from a root of its own, all of its scopes close, and its root bears the name of its
language. -/
def replayed (code : String) (names : List String) : TreeStep → List TreeEvent
  | .text s => ofText s
  | .opens scope => [.opens (some scope)]
  | .closes => ends names.head?.toList
  | .finalize => ends names
  | .embed language steps =>
    .opens (language.map ("language:" ++ ·)) ::
      (replayedAll code [] steps ++ ends (steps.foldl leavesOpen []) ++
        [.closes (language.map ("language:" ++ ·))])
  | .code => ofText code

def replayedAll (code : String) (names : List String) : List TreeStep → List TreeEvent
  | [] => []
  | step :: steps => step.replayed code names ++ replayedAll code (step.leavesOpen names) steps

end

mutual

def added (code : String) : TreeStep → String
  | .text s => s
  | .embed _ steps => addedAll code steps
  | .code => code
  | .opens _ | .closes | .finalize => ""

def addedAll (code : String) : List TreeStep → String
  | [] => ""
  | step :: steps => step.added code ++ addedAll code steps

end

variable (code : String)

mutual

theorem empty_notMem_replayed (names : List String) :
    ∀ step : TreeStep, .text "" ∉ step.replayed code names
  | .text s => by
    rw [replayed]
    exact empty_notMem_ofText s
  | .opens scope => by simp [replayed]
  | .closes => by
    rw [replayed]
    exact empty_notMem_ends _
  | .finalize => by
    rw [replayed]
    exact empty_notMem_ends _
  | .embed language steps => by
    have hsteps := empty_notMem_replayedAll [] steps
    simp [replayed, hsteps, empty_notMem_ends]
  | .code => by
    rw [replayed]
    exact empty_notMem_ofText code

theorem empty_notMem_replayedAll (names : List String) :
    ∀ steps : List TreeStep, .text "" ∉ replayedAll code names steps
  | [] => by simp [replayedAll]
  | step :: steps => by
    rw [replayedAll, List.mem_append]
    rintro (hstep | hsteps)
    · exact empty_notMem_replayed names step hstep
    · exact empty_notMem_replayedAll (step.leavesOpen names) steps hsteps

end

end TreeStep

open TreeEvent TreeStep

theorem Tree.walk_rename {children : List Tree} {met : List TreeEvent} (name : Option String)
    (h : (scope none children).walk = .opens none :: (met ++ [.closes none])) :
    ((scope none children).rename name).walk = .opens name :: (met ++ [.closes name]) := by
  have hmet : walkAll children = met := List.append_cancel_right (List.cons.inj h).2
  rw [rename, walk, hmet]

namespace TreeBuilder

variable (code : String) (b : TreeBuilder)

theorem events_addText (s : String) : (b.addText s).events = b.events ++ ofText s := by
  unfold addText ofText
  split
  · rw [List.append_nil]
  · rw [events_attach, Tree.walk]

theorem events_closeScope_head :
    b.closeScope.events = b.events ++ ends b.openNames.head?.toList := by
  cases h : b.opened with
  | nil => simp [closeScope, h, openNames, ends]
  | cons scope outer =>
    rw [b.events_closeScope h]
    simp [openNames, h, ends]

theorem events_finalize : b.finalize.events = b.events ++ ends b.openNames := by
  have h := b.events_closeScopes rfl
  rw [openNames, List.length_map] at h
  exact h

theorem openNames_finalize : b.finalize.openNames = [] := by
  rw [openNames, opened_finalize, List.map_nil]

theorem events_embed {t : TreeBuilder} {met : List TreeEvent} (language : Option String)
    (h : t.toTree.walk = .opens none :: (met ++ [.closes none])) :
    (b.embed t.toTree language).events =
      b.events ++ .opens (language.map ("language:" ++ ·)) ::
        (met ++ [.closes (language.map ("language:" ++ ·))]) := by
  cases language with
  | none => rw [embed, events_attach, h, Option.map_none]
  | some name => rw [embed, events_attach, toTree, root, Tree.walk_rename _ h, Option.map_some]

/-! One step, and then all of them, from whatever has been built before. -/

theorem openNames_apply (step : TreeStep) :
    (step.apply code b).openNames = step.leavesOpen b.openNames := by
  cases step with
  | text s => exact b.openNames_addText s
  | opens scope => rfl
  | closes => exact b.openNames_closeScope
  | finalize => exact b.openNames_finalize
  | embed language steps => exact b.openNames_embed _ language
  | code => exact b.openNames_addText code

theorem openNames_applyAll (steps : List TreeStep) :
    (applyAll code b steps).openNames = steps.foldl leavesOpen b.openNames := by
  induction steps generalizing b with
  | nil => rfl
  | cons step steps ih => rw [applyAll, ih, openNames_apply, List.foldl_cons]

mutual

theorem events_apply : ∀ (b : TreeBuilder) (step : TreeStep),
    (step.apply code b).events = b.events ++ step.replayed code b.openNames
  | b, .text s => by rw [apply, replayed, events_addText]
  | b, .opens scope => by rw [apply, replayed, events_openScope]
  | b, .closes => by rw [apply, replayed, events_closeScope_head]
  | b, .finalize => by rw [apply, replayed, events_finalize]
  | b, .embed language steps => by
    rw [apply, replayed]
    exact b.events_embed language (walk_applyAll steps)
  | b, .code => by rw [apply, replayed, events_addText]

theorem events_applyAll : ∀ (b : TreeBuilder) (steps : List TreeStep),
    (applyAll code b steps).events = b.events ++ replayedAll code b.openNames steps
  | b, [] => by rw [applyAll, replayedAll, List.append_nil]
  | b, step :: steps => by
    rw [applyAll, replayedAll, events_applyAll (step.apply code b) steps, events_apply b step,
      openNames_apply, List.append_assoc]

theorem walk_applyAll : ∀ steps : List TreeStep,
    (applyAll code {} steps).toTree.walk =
      .opens none :: (replayedAll code [] steps ++ ends (steps.foldl leavesOpen []) ++
        [.closes none])
  | steps => by
    have hevents := events_applyAll {} steps
    have hnames := openNames_applyAll code {} steps
    rw [walk_toTree, hevents, hnames]
    rfl

end

mutual

theorem content_apply : ∀ (b : TreeBuilder) (step : TreeStep),
    (step.apply code b).content = b.content ++ step.added code
  | b, .text s => by rw [apply, added, content_addText]
  | b, .opens scope => by rw [apply, added, content_openScope, String.append_empty]
  | b, .closes => by rw [apply, added, content_closeScope, String.append_empty]
  | b, .finalize => by rw [apply, added, finalize, content_closeScopes, String.append_empty]
  | b, .embed language steps => by
    rw [apply, added, content_embed, plainText_toTree, content_applyAll {} steps, content_empty,
      String.empty_append]
  | b, .code => by rw [apply, added, content_addText]

theorem content_applyAll : ∀ (b : TreeBuilder) (steps : List TreeStep),
    (applyAll code b steps).content = b.content ++ addedAll code steps
  | b, [] => by rw [applyAll, addedAll, String.append_empty]
  | b, step :: steps => by
    rw [applyAll, addedAll, content_applyAll (step.apply code b) steps, content_apply b step,
      String.append_assoc]

end

theorem finalize_finalize : b.finalize.finalize = b.finalize := by
  have h := b.opened_finalize
  rw [finalize, h]
  rfl

/-- The walk over a finished tree replays the steps that built it, between the ends of its root. No
scope stays open, no text is empty, all texts are there in order, and the tree is finished for
good. -/
theorem finalize_replays (steps : List TreeStep) :
    (applyAll code {} steps).finalize.root.walk =
        .opens none :: (replayedAll code [] steps ++ ends (steps.foldl leavesOpen []) ++
          [.closes none]) ∧
      (applyAll code {} steps).finalize.opened = [] ∧
      .text "" ∉ (applyAll code {} steps).finalize.root.walk ∧
      (applyAll code {} steps).finalize.root.plainText = addedAll code steps ∧
      (applyAll code {} steps).finalize.finalize = (applyAll code {} steps).finalize := by
  have hwalk := walk_applyAll code steps
  have htext := (applyAll code {} steps).plainText_toTree
  rw [content_applyAll, content_empty, String.empty_append] at htext
  have hempty : .text "" ∉ (applyAll code {} steps).toTree.walk := by
    rw [hwalk]
    simp [empty_notMem_replayedAll, empty_notMem_ends]
  exact ⟨hwalk, opened_finalize _, hempty, htext, finalize_finalize _⟩

/-- A close too many, an empty text, and an embedded tree with a scope left open. -/
example : (applyAll "" {} [.closes, .opens "a", .text "", .embed (some "x") [.opens "b", .text "t"],
    .text "u"]).finalize.root.walk =
      [.opens none, .opens (some "a"), .opens (some "language:x"), .opens (some "b"), .text "t",
        .closes (some "b"), .closes (some "language:x"), .text "u", .closes (some "a"),
        .closes none] := by
  rfl

end TreeBuilder

end SyntaxHighlight
