/-
  ScriptModule/Markup/Doctype.lean
  ================================
  **Document types.**  In front of the root element a document may declare itself and
  its type.  Declarations of entities and attributes are taken down; those of elements
  and notations are only checked.  Nothing outside of the document is read.
-/
import ScriptModule.Markup.Entity
import ScriptModule.Markup.Mark

namespace ScriptModule.Markup

/-! ### The declaration of the document -/

/-- A setting in the declaration of a document, and the texts that start with its name
    and with its value. -/
structure Setting where
  name : Text
  value : Text
  nameHere : Text
  valueHere : Text
deriving DecidableEq, Repr

/-- Whether a character may stand in the value of a setting. -/
def isSettingChar (c : Char) : Bool := c.isAlphanum || c = '.' || c = '-' || c = '_'

/-- Reads the next setting, if there is one; a mistake is the text left at it. -/
def setting? (t : Text) : Except Text (Option (Setting × Text)) :=
  if !(t.head?.all isBlank) then .error t
  else match skipBlank t with
    | [] => .ok none
    | named =>
      let isName := fun (c : Char) => c.toNat < 128 && c != '=' && !isBlank c
      let n := named.takeWhile isName
      match skipBlank (named.dropWhile isName) with
      | '=' :: r =>
        if n.isEmpty then .error ('=' :: r)
        else match skipBlank r with
          | q :: v =>
            if q = '"' || q = '\'' then
              match v.dropWhile isSettingChar with
              | e :: rest =>
                if e = q then .ok (some (⟨n, v.takeWhile isSettingChar, named, v⟩, rest))
                else .error (e :: rest)
              | [] => .error []
            else .error (q :: v)
          | [] => .error []
      | u => .error u

/-- Whether a document stands alone, from the setting that says so and the text behind
    it. -/
def standsAlone (s : Setting) (rest : Text) : Except Text Bool :=
  if s.name ≠ ("standalone" : Text) then .error s.nameHere
  else if s.value ≠ ("yes" : Text) && s.value ≠ ("no" : Text) then .error s.valueHere
  else match skipBlank rest with
    | [] => .ok (s.value = ("yes" : Text))
    | u => .error u

/-- Reads what the declaration of a document says: a version, then an encoding and
    whether it stands alone, if they are given. -/
def documentDeclaration (body : Text) : Except Text Bool :=
  match setting? body with
  | .error here => .error here
  | .ok none => .error body
  | .ok (some (version, r)) =>
    if version.name ≠ ("version" : Text) then .error version.nameHere
    else match setting? r with
      | .error here => .error here
      | .ok none => .ok false
      | .ok (some (s, r)) =>
        if s.name ≠ ("encoding" : Text) then standsAlone s r
        else if !(s.value.head?.any Char.isAlpha) then .error s.valueHere
        else match setting? r with
          | .error here => .error here
          | .ok none => .ok false
          | .ok (some (s, r)) => standsAlone s r

/-! ### Marks that do not fit -/

/-- The mistake that the first mark is where it does not fit. -/
def misfit : List MarkAt → Mistake
  | [] => ⟨.syntaxError, []⟩
  | m :: _ =>
    match m.mark with
    | .fault c => ⟨c, m.here⟩
    | .parameter _ => ⟨.parameterReference, m.here⟩
    | .declaration _ => ⟨.misplacedDeclaration, m.here⟩
    | _ => ⟨.syntaxError, m.here⟩

def declarationEnd : List MarkAt → Except Mistake Unit
  | [⟨.close, _, _⟩] => .ok ()
  | ms => .error (misfit ms)

/-- The text that starts at a place in a literal, given what is left of its body. -/
def inLiteral (here body left : Text) : Text := left ++ here.drop (1 + body.length)

/-- A value, if its literal is whole; otherwise what is left of the literal is taken for
    a part of the value, where it is no token. -/
def ifWhole {α : Type} (isWhole : Bool) (here body : Text) (v : α) : Except Mistake α :=
  if isWhole then .ok v else .error ⟨.invalidToken, inLiteral here body []⟩

/-! ### External identifiers -/

/-- Whether a character may stand in a public identifier. -/
def isPublicChar (c : Char) : Bool :=
  c.isAlphanum || (" \r\n-'()+,./:=?;!*#@$_%".toList.contains c)

def systemId : List MarkAt → Except Mistake (List MarkAt)
  | ⟨.literal .., _, _⟩ :: ms => .ok ms
  | ms => .error (misfit ms)

/-- The marks behind a literal that is a public identifier. -/
def publicId : List MarkAt → Except Mistake (List MarkAt)
  | ⟨.literal b _, here, _⟩ :: ms =>
    match b.dropWhile isPublicChar with
    | [] => .ok ms
    | left => .error ⟨.badPublicId, inLiteral here b left⟩
  | ms => .error (misfit ms)

def externalId (ms : List MarkAt) : Except Mistake (List MarkAt) :=
  match ms with
  | ⟨.name n, _, _⟩ :: rest =>
    if n = ("SYSTEM" : Text) then systemId rest
    else if n = ("PUBLIC" : Text) then (publicId rest).bind systemId
    else .error (misfit ms)
  | ms => .error (misfit ms)

/-! ### Entities and notations -/

/-- The value of an entity in a literal. -/
def literalValue (d : Doctype) (here body : Text) (isWhole : Bool) : Except Mistake Text :=
  if d.isReading then
    ((entityValue d.width body).mapError fun m =>
      { m with here := inLiteral here body m.here }).bind (ifWhole isWhole here body)
  else .ok []

/-- A declaration of an entity, behind its name.  Only a general entity may be unparsed;
    a parameter is never put in, so nothing is kept of it. -/
def entityDefinition (general : Option Text) (d : Doctype) (ms : List MarkAt) :
    Except Mistake Doctype := do
  let declare := fun e => (general.map fun n => d.declareEntity n e).getD d
  match ms with
  | ⟨.literal b isWhole, here, _⟩ :: rest =>
    let v ← literalValue d here b isWhole
    declarationEnd rest
    return declare (.ofText v)
  | ms =>
    let ms ← externalId ms
    match ms with
    | ⟨.name n, _, _⟩ :: rest =>
      if n = ("NDATA" : Text) && general.isSome then
        match rest with
        | ⟨.name _, _, _⟩ :: rest =>
          declarationEnd rest
          return declare .unparsed
        | rest => .error (misfit rest)
      else .error (misfit ms)
    | ms =>
      declarationEnd ms
      return declare .external

def entityDeclaration (d : Doctype) : List MarkAt → Except Mistake Doctype
  | ⟨.percent, _, _⟩ :: ⟨.name _, _, _⟩ :: ms => entityDefinition none d ms
  | ⟨.percent, _, _⟩ :: ms => .error (misfit ms)
  | ⟨.name n, _, _⟩ :: ms => entityDefinition (some n) d ms
  | ms => .error (misfit ms)

/-- A declaration of a notation; with a public identifier no other is needed. -/
def notationDeclaration : List MarkAt → Except Mistake Unit
  | ⟨.name _, _, _⟩ :: ms =>
    match ms with
    | ⟨.name n, _, _⟩ :: rest =>
      if n = ("PUBLIC" : Text) then do
        let rest ← publicId rest
        match rest with
        | ⟨.literal .., _, _⟩ :: rest => declarationEnd rest
        | rest => declarationEnd rest
      else do
        let rest ← externalId ms
        declarationEnd rest
    | ms => .error (misfit ms)
  | ms => .error (misfit ms)

/-! ### Attributes -/

/-- The types that an attribute may have by name. -/
def attributeTypes : List String :=
  ["CDATA", "ID", "IDREF", "IDREFS", "ENTITY", "ENTITIES", "NMTOKEN", "NMTOKENS"]

/-- A preset value in a literal, and the document type with the tally of what its
    references stand for. -/
def presetValue (d : Doctype) (isPlain : Bool) (m : MarkAt) (body : Text) (isWhole : Bool) :
    Except Mistake (Text × Doctype) :=
  if d.isReading then
    match attributeValue d isPlain .uncounted d.entities.keys (d.tally m.after)
        (valueItems d.width body) with
    | .error e => .error ⟨e.cause, (e.here.map (inLiteral m.here body)).getD m.here⟩
    | .ok (v, tally) =>
      ifWhole isWhole m.here body (v, { d with expanded := tally.indirect })
  else .ok ([], d)

/-- Whether a mark may be a value that is listed in a type; names of notations have no
    prefix. -/
def isListed (ofNotations : Bool) : Mark → Bool
  | .name _ => true
  | .qualified _ | .token _ => !ofNotations
  | _ => false

/-- The marks behind the values that are listed in a type. -/
def listedValues (ofNotations : Bool) : List MarkAt → Except Mistake (List MarkAt)
  | m :: ms =>
    if isListed ofNotations m.mark then
      match ms with
      | ⟨.bar, _, _⟩ :: rest => listedValues ofNotations rest
      | ⟨.closeParen none, _, _⟩ :: rest => .ok rest
      | ms => .error (misfit ms)
    else .error (misfit (m :: ms))
  | [] => .error (misfit [])

/-- Whether spaces are kept in values of a type, and the marks behind the type. -/
def attributeType (ms : List MarkAt) : Except Mistake (Bool × List MarkAt) :=
  match ms with
  | ⟨.name t, _, _⟩ :: rest =>
    if attributeTypes.any fun (s : String) => s.toList == t then
      .ok (t = ("CDATA" : Text), rest)
    else if t = ("NOTATION" : Text) then
      match rest with
      | ⟨.openParen, _, _⟩ :: rest => (listedValues true rest).map fun rest => (false, rest)
      | rest => .error (misfit rest)
    else .error (misfit ms)
  | ⟨.openParen, _, _⟩ :: rest => (listedValues false rest).map fun rest => (false, rest)
  | ms => .error (misfit ms)

/-- The document type with an attribute that has a preset value, and the marks behind the
    literal `m` that gives it. -/
def declarePreset (d : Doctype) (element n : Text) (isPlain : Bool) (m : MarkAt) (body : Text)
    (isWhole : Bool) (rest : List MarkAt) : Except Mistake (Doctype × List MarkAt) :=
  (presetValue d isPlain m body isWhole).map fun (v, d) =>
    (d.declareAttribute ⟨element, n, isPlain, some v⟩,
      limited d.width ⟨d.size, d.expanded⟩ m.after rest)

/-- The document type with an attribute, and the marks behind what follows its type. -/
def attributePreset (d : Doctype) (element n : Text) (isPlain : Bool) (ms : List MarkAt) :
    Except Mistake (Doctype × List MarkAt) :=
  match ms with
  | ⟨.literal b isWhole, here, after⟩ :: rest =>
    declarePreset d element n isPlain ⟨.literal b isWhole, here, after⟩ b isWhole rest
  | ⟨.keyword k, _, _⟩ :: rest =>
    if k = ("IMPLIED" : Text) || k = ("REQUIRED" : Text) then
      .ok (d.declareAttribute ⟨element, n, isPlain, none⟩, rest)
    else if k = ("FIXED" : Text) then
      match rest with
      | ⟨.literal b isWhole, here, after⟩ :: rest =>
        declarePreset d element n isPlain ⟨.literal b isWhole, here, after⟩ b isWhole rest
      | rest => .error (misfit rest)
    else .error (misfit ms)
  | ms => .error (misfit ms)

theorem listedValues_length {b : Bool} {ms rest : List MarkAt}
    (h : listedValues b ms = .ok rest) : rest.length ≤ ms.length := by
  fun_induction listedValues b ms with
  | case1 m _ r _ _ ih => have := ih h; simp only [List.length_cons]; omega
  | case2 => cases h; simp only [List.length_cons]; omega
  | _ => simp at h

theorem attributeType_length {ms rest : List MarkAt} {b : Bool}
    (h : attributeType ms = .ok (b, rest)) : rest.length ≤ ms.length := by
  unfold attributeType at h
  split at h
  · split at h
    · cases h; simp only [List.length_cons]; omega
    split at h
    · split at h
      · obtain ⟨r, hr, he⟩ := map_eq_ok h
        have := listedValues_length hr
        cases he
        simp only [List.length_cons]
        omega
      · simp at h
    · simp at h
  · obtain ⟨r, hr, he⟩ := map_eq_ok h
    have := listedValues_length hr
    cases he
    simp only [List.length_cons]
    omega
  · simp at h

theorem declarePreset_length {d d' : Doctype} {e n body : Text} {b isWhole : Bool} {m : MarkAt}
    {ms rest : List MarkAt} (h : declarePreset d e n b m body isWhole ms = .ok (d', rest)) :
    rest.length ≤ ms.length := by
  obtain ⟨p, _, he⟩ := map_eq_ok h
  cases he
  exact limited_length_le _ _ _ _

theorem attributePreset_length {d d' : Doctype} {e n : Text} {b : Bool} {ms rest : List MarkAt}
    (h : attributePreset d e n b ms = .ok (d', rest)) : rest.length ≤ ms.length := by
  unfold attributePreset at h
  split at h
  · have := declarePreset_length h; simp only [List.length_cons]; omega
  · split at h
    · cases h; simp only [List.length_cons]; omega
    split at h
    · split at h
      · have := declarePreset_length h; simp only [List.length_cons]; omega
      · simp at h
    · simp at h
  · simp at h

/-- The name that an attribute or an element is declared by. -/
def Mark.declaredName? : Mark → Option Text
  | .name n | .qualified n => some n
  | _ => none

def attributeDeclarations (element : Text) (d : Doctype) (ms : List MarkAt) :
    Except Mistake Doctype :=
  match ms with
  | [⟨.close, _, _⟩] => .ok d
  | [] => .error (misfit [])
  | m :: ms =>
    match m.mark.declaredName? with
    | none => .error (misfit (m :: ms))
    | some n =>
      match _ht : attributeType ms with
      | .error e => .error e
      | .ok (isPlain, rest) =>
        match _hp : attributePreset d element n isPlain rest with
        | .error e => .error e
        | .ok (d, rest) => attributeDeclarations element d rest
termination_by ms.length
decreasing_by
  have h1 := attributeType_length _ht
  have h2 := attributePreset_length _hp
  simp only [List.length_cons]
  omega

def attributeListDeclaration (d : Doctype) : List MarkAt → Except Mistake Doctype
  | ⟨.name e, _, _⟩ :: ms => attributeDeclarations e d ms
  | ⟨.qualified e, _, _⟩ :: ms => attributeDeclarations e d ms
  | ms => .error (misfit ms)

/-! ### Elements -/

/-- Whether a mark names an element in a content model. -/
def isElementName (m : Mark) : Bool := m.declaredName?.isSome

/-- Content with text: more names, each behind a bar, and then a star. -/
def mixedNames : List MarkAt → Except Mistake Unit
  | ⟨.bar, _, _⟩ :: m :: ms =>
    if isElementName m.mark then
      match ms with
      | ⟨.closeParen (some '*'), _, _⟩ :: rest => declarationEnd rest
      | ms => mixedNames ms
    else .error (misfit (m :: ms))
  | ⟨.bar, _, _⟩ :: [] => .error (misfit [])
  | ms => .error (misfit ms)

def mixedContent : List MarkAt → Except Mistake Unit
  | ⟨.closeParen none, _, _⟩ :: ms => declarationEnd ms
  | ⟨.closeParen (some '*'), _, _⟩ :: ms => declarationEnd ms
  | ms => mixedNames ms

mutual

/-- A model of content, in front of an item; `signs` holds for each open group the sign
    between its items, once it is known. -/
def contentItem (signs : List (Option Mark)) (ms : List MarkAt) : Except Mistake Unit :=
  match ms with
  | ⟨.openParen, _, _⟩ :: rest => contentItem (none :: signs) rest
  | m :: rest =>
    if isElementName m.mark || m.mark = .repeated then contentSign signs rest
    else .error (misfit (m :: rest))
  | [] => .error (misfit [])

/-- A model of content, behind an item.  In one group only one sign is used. -/
def contentSign (signs : List (Option Mark)) (ms : List MarkAt) : Except Mistake Unit :=
  match ms, signs with
  | ⟨.closeParen _, _, _⟩ :: rest, [_] => declarationEnd rest
  | ⟨.closeParen _, _, _⟩ :: rest, _ :: signs => contentSign signs rest
  | m :: rest, sign :: signs =>
    if (m.mark = .comma || m.mark = .bar) && (sign = none || sign = some m.mark) then
      contentItem (some m.mark :: signs) rest
    else .error (misfit (m :: rest))
  | ms, _ => .error (misfit ms)

end

def elementDeclaration : List MarkAt → Except Mistake Unit
  | m :: ms =>
    if isElementName m.mark then
      match ms with
      | ⟨.name n, _, _⟩ :: rest =>
        if n = ("EMPTY" : Text) || n = ("ANY" : Text) then declarationEnd rest
        else .error (misfit ms)
      | ⟨.openParen, _, _⟩ :: rest =>
        match rest with
        | ⟨.keyword k, _, _⟩ :: behind =>
          if k = ("PCDATA" : Text) then mixedContent behind else .error (misfit rest)
        | rest => contentItem [none] rest
      | ms => .error (misfit ms)
    else .error (misfit (m :: ms))
  | [] => .error (misfit [])

/-! ### Document types -/

def declaration (d : Doctype) (opening : MarkAt) (word : Text) (ms : List MarkAt) :
    Except Mistake Doctype :=
  if word = ("ENTITY" : Text) then entityDeclaration d ms
  else if word = ("ATTLIST" : Text) then attributeListDeclaration d ms
  else if word = ("ELEMENT" : Text) then (elementDeclaration ms).map fun _ => d
  else if word = ("NOTATION" : Text) then (notationDeclaration ms).map fun _ => d
  else .error (misfit [opening])

/-- Skips a reference to a parameter: what it stands for is not read. -/
def Doctype.skipParameter (d : Doctype) : Doctype :=
  { d with hasUnread := true, isReading := d.standsAlone }

def isClose (m : MarkAt) : Bool := m.mark = .close

/-- The marks behind the declaration that marks start with. -/
def behindDeclaration (d : Doctype) (ms : List MarkAt) : List MarkAt :=
  match ms.dropWhile fun m => !isClose m with
  | [] => []
  | m :: rest => limited d.width ⟨d.size, d.expanded⟩ m.after rest

theorem behindDeclaration_length_le (d : Doctype) (ms : List MarkAt) :
    (behindDeclaration d ms).length ≤ ms.length := by
  have h := (List.dropWhile_suffix (l := ms) fun m => !isClose m).length_le
  unfold behindDeclaration
  split
  · exact Nat.zero_le _
  · next m rest hm =>
    have := limited_length_le d.width ⟨d.size, d.expanded⟩ m.after rest
    rw [hm] at h
    simp only [List.length_cons] at h
    omega

/-- The declarations between the brackets of a document type, and the marks behind
    them. -/
def declarations (d : Doctype) (ms : List MarkAt) : Except Mistake (Doctype × List MarkAt) :=
  match ms with
  | ⟨.remark, _, _⟩ :: rest => declarations d rest
  | ⟨.parameter _, _, _⟩ :: rest => declarations d.skipParameter rest
  | ⟨.closeBracket, _, _⟩ :: rest => .ok (d, rest)
  | ⟨.opening w, here, after⟩ :: rest =>
    let ending := (rest.dropWhile fun m => !isClose m).take 1
    match declaration d ⟨.opening w, here, after⟩ w
        ((rest.takeWhile fun m => !isClose m) ++ ending) with
    | .error m => .error m
    | .ok d => declarations d (behindDeclaration d rest)
  | ms => .error (misfit ms)
termination_by ms.length
decreasing_by
  all_goals simp only [List.length_cons]
  all_goals first
    | omega
    | exact Nat.lt_succ_of_le (behindDeclaration_length_le d rest)

/-- The marks behind a document type, from its name on. -/
def documentType (d : Doctype) : List MarkAt → Except Mistake (Doctype × List MarkAt)
  | m :: ms => do
    if !isElementName m.mark then throw (misfit (m :: ms))
    let (d, ms) ← match ms with
      | ⟨.name _, _, _⟩ :: _ => do
        let rest ← externalId ms
        pure ({ d with hasUnread := true }, rest)
      | ms => pure (d, ms)
    let (d, ms) ← match ms with
      | ⟨.openBracket, _, _⟩ :: rest => declarations d rest
      | ms => pure (d, ms)
    match ms with
    | ⟨.close, _, _⟩ :: rest => return (d, rest)
    | ms => throw (misfit ms)
  | [] => .error (misfit [])

/-! ### In front of the root element -/

/-- The text of the root element behind remarks, in a document whose type is known. -/
def rootText : List MarkAt → Except Mistake Text
  | ⟨.remark, _, _⟩ :: ms => rootText ms
  | ⟨.root, here, _⟩ :: _ => .ok here
  | ms => .error (misfit ms)

/-- The document type and the text of the root element, behind remarks. -/
def typeAndRoot (d : Doctype) (ms : List MarkAt) : Except Mistake (Doctype × Text) :=
  match ms with
  | ⟨.remark, _, _⟩ :: rest => typeAndRoot d rest
  | ⟨.opening w, _, _⟩ :: rest =>
    if w = ("DOCTYPE" : Text) then do
      let (d, rest) ← documentType d rest
      return (d, ← rootText rest)
    else .error (misfit ms)
  | ms => (rootText ms).map fun t => (d, t)

def withoutOrderMark : Text → Text
  | '\uFEFF' :: r => r
  | t => t

/-- The document type of a document and the text from its root element on. -/
def opening (s : Source) : Except Mistake (Doctype × Text) :=
  let t := withoutOrderMark s.text
  let d : Doctype := { width := s.width, size := s.size }
  match marks s.width s.isCut t with
  | ⟨.declaration body, here, after⟩ :: ms =>
    if t.head?.any isBlank then .error (misfit [⟨.declaration body, here, after⟩])
    else
      match documentDeclaration body with
      | .error left =>
        .error ⟨.malformedDeclaration,
          left ++ here.drop (2 + declarationTarget.length + body.length)⟩
      | .ok alone => typeAndRoot { d with standsAlone := alone } ms
  | ms => typeAndRoot d ms

end ScriptModule.Markup
