import ChipSupport.Fault
import ChipSupport.Markup.Content
import ChipSupport.Markup.Reference

/-!
# Declarations of a document type

A document type declares elements, their attributes, notations and entities.  Of the attributes it
may say a value for elements that have none, and whether blanks in their values count.  Entities are
refused, except where their declaration has no effect.

## Main definitions

* `AttributeRule`, `Rules` — what the declarations say.
* `Declaration.element`, `Declaration.attributes`, `Declaration.notation_`, `Declaration.entity` —
  the declarations, given by their marks.
-/

namespace ChipSupport.Markup

/-- What is declared of an attribute of the elements of a name. -/
structure AttributeRule where
  /-- The elements. -/
  element : List Char
  /-- The attribute. -/
  name : List Char
  /-- Whether blanks count: otherwise the value is a list of words with single blanks between
  them. -/
  blanksCount : Bool
  /-- Whether values identify elements. -/
  identifies : Bool := false
  /-- The value of elements without the attribute. -/
  value : Option String := none
  deriving DecidableEq, Repr

/-- What the start of a document says about the rest. -/
structure Rules where
  /-- Whether the document stands alone, so that declarations elsewhere do not matter. -/
  alone : Bool := false
  /-- Whether the document type refers to declarations elsewhere. -/
  elsewhere : Bool := false
  /-- Whether declarations have an effect. -/
  effective : Bool := true
  /-- The attributes. -/
  attributes : List AttributeRule := []
  deriving DecidableEq, Repr

namespace Rules

/-- Whether names may be declared elsewhere. -/
def lenient (r : Rules) : Bool := r.elsewhere && !r.alone

/-- The rules after a reference to declarations elsewhere: what is declared after it has no effect,
unless the document stands alone. -/
def afterReference (r : Rules) : Rules := { r with elsewhere := true, effective := r.alone }

/-- Whether a rule is for an attribute of an element. -/
def concerns (element name : List Char) (a : AttributeRule) : Bool :=
  a.element == element && a.name == name

/-- The rules with one more for an attribute.  Of several values the first one counts. -/
def declare (r : Rules) (a : AttributeRule) : Rules :=
  if (a.value.isSome || a.identifies) && r.attributes.any (concerns a.element a.name) then r
  else { r with attributes := r.attributes ++ [a] }

/-- Whether blanks count in an attribute of an element, as they do unless the first rule for it says
otherwise. -/
def blanksCount (r : Rules) (element name : List Char) : Bool :=
  match r.attributes.find? (concerns element name) with
  | some a => a.blanksCount
  | none => true

/-- The attributes of an element with the values declared for those that it lacks. -/
def complete (r : Rules) (element : List Char) (own : List (String × String)) :
    List (String × String) :=
  r.attributes.foldl (fun found a =>
    let name := String.ofList a.name
    match a.value with
    | some value =>
      if a.element == element && !(found.map Prod.fst).contains name then found ++ [(name, value)]
      else found
    | none => found) own

end Rules

namespace Declaration

/-- Whether the last mark of a declaration follows. -/
def ends (ms : List Mark) : Bool := ms == [.stop]

/-- Whether a character may stand in a public identifier. -/
def isPublicChar (c : Char) : Bool :=
  c.isAlphanum || " \r\n-'()+,./:=?;!*#@$_%".toList.contains c

/-- Whether a text is a public identifier. -/
def isPublic (s : List Char) : Bool := s.all isPublicChar

/-- The marks after the name of a place where something is described, if there is one. -/
def place? : List Mark → Option (List Mark)
  | .name key :: .literal first :: rest =>
    if key == "SYSTEM".toList then some rest
    else if key == "PUBLIC".toList && isPublic first then
      match rest with
      | .literal _ :: rest => some rest
      | _ => none
    else none
  | _ => none

/-- Whether marks declare what an element contains. -/
def element : List Mark → Bool
  | .name _ :: model => Content.isModel model
  | _ => false

/-- Whether marks declare a notation, which may do with a public identifier. -/
def notation_ : List Mark → Bool
  | [.name _, .name key, .literal identifier, .stop] =>
    key == "SYSTEM".toList || (key == "PUBLIC".toList && isPublic identifier)
  | .name _ :: rest =>
    match rest, place? rest with
    | .name key :: _, some after => key == "PUBLIC".toList && ends after
    | _, _ => false
  | _ => false

/-- The marks after a list of alternatives, of which the bracket is read.  If `named`, they are
names. -/
def alternatives? (named : Bool) : List Mark → Option (List Mark)
  | .name _ :: .closing none :: rest => some rest
  | .name _ :: .bar :: rest => alternatives? named rest
  | .word _ :: .closing none :: rest => if named then none else some rest
  | .word _ :: .bar :: rest => if named then none else alternatives? named rest
  | _ => none

/-- The types of attributes of which the values are words. -/
def wordTypes : List (List Char) :=
  ["IDREF".toList, "IDREFS".toList, "ENTITY".toList, "ENTITIES".toList, "NMTOKEN".toList,
    "NMTOKENS".toList]

/-- The rule of a type, for an attribute, and the marks after the type. -/
def attributeType? (element name : List Char) : List Mark → Option (AttributeRule × List Mark)
  | .opening :: rest =>
    (alternatives? false rest).map fun after => ({ element, name, blanksCount := false }, after)
  | .name type :: rest =>
    if type == "CDATA".toList then some ({ element, name, blanksCount := true }, rest)
    else if type == "ID".toList then
      some ({ element, name, blanksCount := false, identifies := true }, rest)
    else if wordTypes.contains type then some ({ element, name, blanksCount := false }, rest)
    else if type == "NOTATION".toList then
      match rest with
      | .opening :: rest =>
        (alternatives? true rest).map fun after => ({ element, name, blanksCount := false }, after)
      | _ => none
    else none
  | _ => none

/-- The rules with one for an attribute, whose value for elements that lack it is in quotes. -/
def declareValue? (r : Rules) (a : AttributeRule) (raw : List Char) : Option Rules :=
  if r.effective then
    (attributeValue r.lenient a.blanksCount raw).map fun value =>
      r.declare { a with value := some value, identifies := false }
  else some r

/-- The rules with one for an attribute, by the marks after its type, and the marks after them. -/
def attributeDefault? (r : Rules) (a : AttributeRule) : List Mark → Option (Rules × List Mark)
  | .literal raw :: rest => (declareValue? r a raw).map fun r => (r, rest)
  | .keyword key :: rest =>
    if key == "IMPLIED".toList || key == "REQUIRED".toList then
      some (if r.effective then r.declare a else r, rest)
    else if key == "FIXED".toList then
      match rest with
      | .literal raw :: rest => (declareValue? r a raw).map fun r => (r, rest)
      | _ => none
    else none
  | _ => none

/-- The rules with those for the attributes of an element. -/
def attributesOf (r : Rules) (element : List Char) (ms : List Mark) : Option Rules :=
  match ms with
  | [.stop] => some r
  | .name name :: body =>
    match attributeType? element name body with
    | none => none
    | some (a, rest) =>
      match attributeDefault? r a rest with
      | none => none
      | some (r, rest) =>
        if _h : rest.length ≤ body.length then attributesOf r element rest else none
  | _ => none
termination_by ms.length
decreasing_by
  simp only [List.length_cons]
  omega

/-- The rules with those of a declaration of attributes. -/
def attributes (r : Rules) : List Mark → Option Rules
  | .name element :: rest => attributesOf r element rest
  | _ => none

/-- Whether a text may be the value of an entity. -/
def isEntityValue (s : List Char) : Bool := (expand true s).isSome && !s.contains '%'

/-- Whether marks end the declaration of an entity that is described elsewhere.  An entity that is
not `inner`, one for declarations only, may be in a notation. -/
def endsEntity (inner : Bool) : List Mark → Bool
  | [.stop] => true
  | .name key :: .name _ :: _ => inner && key == "NDATA".toList
  | _ => false

/-- The declaration of an entity by the marks after its name.  It is refused as soon as it says what
the entity is, if it has an effect. -/
def entityValue (effective checked inner : Bool) (ms : List Mark) : Except Fault Unit :=
  match ms with
  | .literal value :: rest =>
    if effective then .error .entityDeclared
    else if (checked && !isEntityValue value) || !ends rest then .error .markupMalformed
    else .ok ()
  | ms =>
    match place? ms with
    | none => .error .markupMalformed
    | some rest =>
      if !endsEntity inner rest then .error .markupMalformed
      else if effective then .error .entityDeclared
      else match rest with
        | [.stop] | [_, _, .stop] => .ok ()
        | _ => .error .markupMalformed

/-- The declaration of an entity.  Those that every document knows are not changed by it. -/
def entity (r : Rules) : List Mark → Except Fault Unit
  | .name name :: rest =>
    entityValue (r.effective && (namedCharacters.lookup name).isNone) r.effective true rest
  | .percent :: .name _ :: rest => entityValue r.effective r.effective false rest
  | _ => .error .markupMalformed

end Declaration

end ChipSupport.Markup
