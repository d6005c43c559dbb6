import ChipSupport.Markup.Declaration

/-!
# The start of a markup document

A declaration, comments, instructions and a document type may stand before the outermost element.
Of these, the document type says something about the elements.

## Main definitions

* `Markup.comment`, `Markup.instruction` — parts that carry no data.
* `Markup.documentType` — the rules of a document type.
* `Markup.prolog` — everything before the outermost element.
-/

namespace ChipSupport.Markup

/-- The rest of a text after a comment, whose opening mark is read. -/
def comment (s : List Char) : Option (List Char) :=
  match splitAtMark ['-', '-'] s with
  | some (body, '>' :: rest) => if body.all isAllowed then some rest else none
  | _ => none

theorem length_comment_le {s rest : List Char} (h : comment s = some rest) :
    rest.length ≤ s.length := by
  unfold comment at h
  split at h
  · rename_i found
    split at h
    · cases h
      exact Nat.le_of_succ_le (length_splitAtMark_le found)
    · simp at h
  · simp at h

/-- Whether a name is reserved for the declaration of a document. -/
def isReserved (name : List Char) : Bool :=
  name.length == 3 && (name.map Char.toLower == ['x', 'm', 'l'])

/-- The rest of a text after an instruction, whose opening mark is read. -/
def instruction (s : List Char) : Option (List Char) :=
  match readName s with
  | none => none
  | some (name, rest) =>
    if isReserved name then none
    else match splitAtMark ['?', '>'] rest with
      | none => none
      | some (body, after) =>
        let separated := match body with
          | [] => true
          | c :: _ => isSpace c
        if separated && body.all isAllowed then some after else none

theorem length_instruction_lt {s rest : List Char} (h : instruction s = some rest) :
    rest.length < s.length := by
  unfold instruction at h
  split at h
  · simp at h
  · rename_i named
    split at h
    · simp at h
    · split at h
      · simp at h
      · rename_i found
        simp only at h
        split at h
        · split at h <;> cases h
          exact Nat.lt_of_le_of_lt (length_splitAtMark_le found) (length_readName_lt named)
        · split at h <;> cases h
          exact Nat.lt_of_le_of_lt (length_splitAtMark_le found) (length_readName_lt named)

/-- A text in quotes at the start, and the rest. -/
def quotedText : List Char → Option (List Char × List Char)
  | [] => none
  | q :: rest =>
    if q == '"' || q == '\'' then
      match rest.dropWhile (· != q) with
      | _ :: after => some (rest.takeWhile (· != q), after)
      | [] => none
    else none

theorem length_quotedText_lt {s text rest : List Char} (h : quotedText s = some (text, rest)) :
    rest.length < s.length := by
  unfold quotedText at h
  split at h
  · simp at h
  · rename_i q s
    split at h
    · have := length_dropWhile_le (· != q) s
      split at h
      · rename_i e
        cases h
        simp only [e, List.length_cons] at this ⊢
        omega
      · simp at h
    · simp at h

/-- A setting of the declaration, `name="value"` after space, and the rest. -/
def setting (name s : List Char) : Option (List Char × List Char) :=
  match s with
  | [] => none
  | c :: _ =>
    if isSpace c then
      match afterMark name (dropSpace s) with
      | none => none
      | some rest =>
        match dropSpace rest with
        | '=' :: rest => quotedText (dropSpace rest)
        | _ => none
    else none

/-- Whether a text may be a value in the declaration. -/
def isSettingValue (s : List Char) : Bool :=
  s.all fun c => c.isAlphanum || c == '.' || c == '-' || c == '_'

/-- Whether a text may name an encoding. -/
def isEncodingName (s : List Char) : Bool :=
  isSettingValue s &&
    match s with
    | c :: _ => c.isAlpha
    | [] => false

/-- The rest after the declaration, whose opening mark is read, and whether it says that the
document stands alone. -/
def declaration (s : List Char) : Option (Bool × List Char) :=
  match setting "version".toList s with
  | none => none
  | some (version, rest) =>
    if !isSettingValue version then none
    else
      let encoded := match setting "encoding".toList rest with
        | some (name, after) => if isEncodingName name then some after else none
        | none => some rest
      match encoded with
      | none => none
      | some rest =>
        let alone := match setting "standalone".toList rest with
          | some (['y', 'e', 's'], after) => some (true, after)
          | some (['n', 'o'], after) => some (false, after)
          | some _ => none
          | none => some (false, rest)
        match alone with
        | none => none
        | some (alone, rest) =>
          (afterMark ['?', '>'] (dropSpace rest)).map fun after => (alone, after)

/-- The rules after a declaration, of which the kind is read. -/
def declared (r : Rules) (kind : List Char) (ms : List Mark) : Except Fault Rules :=
  let checked (valid : Bool) : Except Fault Rules :=
    if valid then .ok r else .error .markupMalformed
  if kind == "ENTITY".toList then (Declaration.entity r ms).map fun _ => r
  else if kind == "ELEMENT".toList then checked (Declaration.element ms)
  else if kind == "NOTATION".toList then checked (Declaration.notation_ ms)
  else match Declaration.attributes r ms with
    | some r => .ok r
    | none => .error .markupMalformed

/-- The kinds of declarations in a document type. -/
def declarationKinds : List (List Char) :=
  ["ENTITY".toList, "ELEMENT".toList, "NOTATION".toList, "ATTLIST".toList]

/-- One part of the declarations of a document type: the rules after it, and the rest of the
text. -/
def subsetPart (r : Rules) (s : List Char) : Except Fault (Rules × List Char) :=
  let skipped (rest : Option (List Char)) : Except Fault (Rules × List Char) :=
    match rest with
    | some rest => .ok (r, rest)
    | none => .error .markupMalformed
  match s with
  | '%' :: rest =>
    match readName rest with
    | some (_, ';' :: after) => .ok (r.afterReference, after)
    | _ => .error .markupMalformed
  | '<' :: '?' :: rest => skipped (instruction rest)
  | '<' :: '!' :: '-' :: '-' :: rest => skipped (comment rest)
  | '<' :: '!' :: rest =>
    match declarationKinds.find? fun kind => kind.isPrefixOf rest with
    | none => .error .markupMalformed
    | some kind =>
      match rest.drop kind.length with
      | [] => .error .markupMalformed
      | c :: body =>
        if isSpace c then
          let (ms, rest) := marks body
          (declared r kind ms).map fun r => (r, rest)
        else .error .markupMalformed
  | c :: rest => if isSpace c then .ok (r, rest) else .error .markupMalformed
  | [] => .error .markupMalformed

/-- The rules after the declarations of a document type, and the rest of the text. -/
def subset (r : Rules) (s : List Char) : Except Fault (Rules × List Char) :=
  match s with
  | ']' :: rest => .ok (r, rest)
  | s =>
    match subsetPart r s with
    | .error f => .error f
    | .ok (r, rest) =>
      if _h : rest.length < s.length then subset r rest else .error .markupMalformed
termination_by s.length

/-- Whether the marks at the start of a document type refer to declarations elsewhere, and the mark
that follows. -/
def documentHead : List Mark → Option (Bool × Mark)
  | [.name _, m] => some (false, m)
  | .name _ :: rest =>
    match Declaration.place? rest with
    | some [m] => some (true, m)
    | _ => none
  | _ => none

/-- The rules of a document type, whose opening mark is read, and the rest of the text. -/
def documentType (alone : Bool) (s : List Char) : Except Fault (Rules × List Char) :=
  match s with
  | [] => .error .markupMalformed
  | c :: _ =>
    if !isSpace c then .error .markupMalformed
    else
      let (ms, rest) := marks s
      match documentHead ms with
      | some (elsewhere, .stop) => .ok ({ alone, elsewhere }, rest)
      | some (elsewhere, .bracket) => do
        let (r, rest) ← subset { alone, elsewhere } rest
        match dropSpace rest with
        | '>' :: rest => return (r, rest)
        | _ => throw .markupMalformed
      | _ => .error .markupMalformed

/-- The rest of a text after space, comments and instructions. -/
def skipRemarks (s : List Char) : Except Fault (List Char) :=
  let after : Option (List Char) := match s with
    | '<' :: '?' :: rest => instruction rest
    | '<' :: '!' :: '-' :: '-' :: rest => comment rest
    | s => some (dropSpace s)
  match after with
  | none => .error .markupMalformed
  | some rest => if _h : rest.length < s.length then skipRemarks rest else .ok rest
termination_by s.length

/-- The rest of a text from the outermost element on, and the rules for it. -/
def prolog (s : List Char) : Except Fault (Rules × List Char) := do
  let s := match s with
    | '\ufeff' :: rest => rest
    | s => s
  let (alone, s) ←
    match afterMark "<?xml".toList s with
    | some (c :: rest) =>
      if isSpace c then
        match declaration (c :: rest) with
        | some p => pure p
        | none => throw .markupMalformed
      else pure (false, s)
    | _ => pure (false, s)
  let s ← skipRemarks s
  match afterMark "<!DOCTYPE".toList s with
  | none => return ({ alone }, s)
  | some rest =>
    let (r, rest) ← documentType alone rest
    let rest ← skipRemarks rest
    return (r, rest)

end ChipSupport.Markup
