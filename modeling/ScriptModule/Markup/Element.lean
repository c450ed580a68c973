/-
  ScriptModule/Markup/Element.lean
  ================================
  **Elements.**  A document is read into a tree of elements.  Of an element are kept
  its name without prefix, the text in front of its first child, and its children.
-/
import ScriptModule.Markup.Doctype
import ScriptModule.Markup.Scope

namespace ScriptModule.Markup

/-! ### Trees -/

/-- An element with the text in front of its first child. -/
inductive Element where
  | node (name text : Text) (children : List Element)

namespace Element

def name : Element → Text
  | node n _ _ => n

def text : Element → Text
  | node _ t _ => t

def children : Element → List Element
  | node _ _ cs => cs

mutual

/-- The elements of a tree, each in front of those inside of it, and then those behind
    the tree. -/
def allOnto (behind : List Element) : Element → List Element
  | node n t cs => node n t cs :: rowOnto behind cs

/-- The elements of a row of trees, and then those behind the row. -/
def rowOnto (behind : List Element) : List Element → List Element
  | [] => behind
  | e :: es => allOnto (rowOnto behind es) e

end

/-- The elements of a tree, each in front of those inside of it. -/
def all (e : Element) : List Element := allOnto [] e

end Element

/-! ### Building a tree -/

/-- An element whose end tag is still to come; text and children are newest first. -/
structure Frame where
  tagName : Text
  scope : Scope
  text : Text := []
  children : List Element := []

namespace Frame

def element (f : Frame) : Element :=
  .node (localName f.tagName) f.text.reverse f.children.reverse

/-- Adds text, which counts only in front of the first child. -/
def addText (t : Text) (f : Frame) : Frame :=
  if f.children.isEmpty then { f with text := t.reverseAux f.text } else f

def addChild (e : Element) (f : Frame) : Frame := { f with children := e :: f.children }

end Frame

/-- What building comes to, and what has been read: elements that are still open, the
    innermost first, or the root element and the text behind it. -/
inductive Built where
  | unfinished (frames : List Frame) (tally : Tally)
  | done (root : Element) (rest : Text) (tally : Tally)

/-- The scope inside of the innermost open element. -/
def innerScope : List Frame → Scope
  | [] => Scope.initial
  | f :: _ => f.scope

/-- Changes the innermost open element. -/
def inInnermost (g : Frame → Frame) : List Frame → List Frame
  | [] => []
  | f :: fs => g f :: fs

/-- The context of a tag in a document, or, where elements are open around the pieces, in
    an entity. -/
def contextOf (d : Doctype) (free : List Text) (floor : Nat) (here : Text) : TagContext :=
  if floor = 0 then ⟨.direct, d.width, free, here⟩ else ⟨.indirect, .narrow, free, here⟩

/-- Builds elements from pieces of content.  `floor` elements are open around the pieces
    and must stay open; a document has none around it.  `free` are the entities that are
    not being replaced; a mistake in an entity counts as one at the reference to it. -/
def build (d : Doctype) (free : List Text) (floor : Nat) (tally : Tally) (frames : List Frame)
    (ls : List Lexeme) : Except Mistake Built :=
  match ls with
  | [] => .ok (.unfinished frames tally)
  | l :: ls =>
    match tally.read (if floor = 0 then .direct else .indirect) l.size with
    | none => .error ⟨.amplification, l.here⟩
    | some tally =>
      match l.piece with
      | .finish =>
        if floor = 0 then .error ⟨.noElement, l.here⟩
        else if (frames.drop floor).isEmpty then .ok (.unfinished frames tally)
        else .error ⟨.asynchronousEntity, l.here⟩
      | .fault c => .error ⟨c, l.here⟩
      | .remark | .sectionStart | .sectionEnd => build d free floor tally frames ls
      | .data t => build d free floor tally (inInnermost (Frame.addText t) frames) ls
      | .start t =>
        match t.scope d (contextOf d free floor l.here) (innerScope frames) tally with
        | .error m => .error m
        | .ok (scope, tally) =>
          let f : Frame := { tagName := t.name, scope := scope }
          if t.isEmpty then
            match frames with
            | [] => .ok (.done f.element l.rest tally)
            | g :: fs => build d free floor tally (g.addChild f.element :: fs) ls
          else build d free floor tally (f :: frames) ls
      | .stop n nameHere =>
        if (frames.drop floor).isEmpty then .error ⟨.asynchronousEntity, l.here⟩
        else match frames with
          | [] => .error ⟨.asynchronousEntity, l.here⟩
          | f :: fs =>
            if f.tagName ≠ n then .error ⟨.mismatchedTag, nameHere⟩
            else match fs with
              | [] => .ok (.done f.element l.rest tally)
              | g :: gs => build d free floor tally (g.addChild f.element :: gs) ls
      | .entity n =>
        match predefined? n with
        | some c =>
          build d free floor (tally.add .indirect 1) (inInnermost (Frame.addText [c]) frames) ls
        | none =>
          match d.entities.get? n with
          | none => .error ⟨if d.isComplete then .undefinedEntity else .unreadEntity n, l.here⟩
          | some e =>
            if _hn : n ∈ free then
              match e with
              | .unparsed => .error ⟨.binaryEntity, l.here⟩
              | .external => .error ⟨.unreadEntity n, l.here⟩
              | .text inner _ =>
                match build d (free.erase n) frames.length tally frames inner with
                | .error m => .error ⟨m.cause, l.here⟩
                | .ok (.done root rest tally) => .ok (.done root rest tally)
                | .ok (.unfinished frames tally) => build d free floor tally frames ls
            else .error ⟨.recursiveEntity, l.here⟩
termination_by (free.length, ls.length)
decreasing_by
  all_goals simp_wf
  all_goals first
    | exact Prod.Lex.right _ (by simp)
    | (refine Prod.Lex.left _ _ ?_
       rw [List.length_erase_of_mem _hn]
       have := List.length_pos_of_mem _hn
       omega)

/-! ### Documents -/

/-- Checks that only remarks stand in the text behind the root element; `tally` is what
    has been read in front of it. -/
def epilogue (s : Source) (rest : Text) (tally : Tally) : Except Mistake Unit :=
  let ms := limited s.width (tally.add .direct (s.width.size rest)) rest
    (marks s.width s.isCut rest)
  match ms.find? fun m => m.mark ≠ .remark with
  | none => .ok ()
  | some m =>
    match m.mark with
    | .fault .noElement => .ok ()
    | .fault c => .error ⟨c, m.here⟩
    | _ => .error ⟨.junkAfterRoot, m.here⟩

def Element.ofSource (s : Source) : Except Mistake Element :=
  match opening s with
  | .error m => .error m
  | .ok (d, t) =>
    match build d d.entities.keys 0 (d.tally t) [] (pieces s.width s.isCut false t) with
    | .error m => .error m
    | .ok (.unfinished ..) => .error ⟨.noElement, []⟩
    | .ok (.done root rest tally) => (epilogue s rest tally).map fun _ => root

end ScriptModule.Markup
