import ChipSupport.Markup.Mark

/-!
# Content models

A declaration may say what an element contains: nothing, anything, text mixed with elements, or
elements in sequences and choices.  What it says does not restrict documents, but it has to be said
properly.

## Main definitions

* `Content.isModel` — whether marks are a content model up to the end of the declaration.
-/

namespace ChipSupport.Markup.Content

/-- Whether marks are the names of elements that text is mixed with, up to the end. -/
def isMixed : List Mark → Bool
  | [.closing (some '*'), .stop] => true
  | .bar :: .name _ :: rest => isMixed rest
  | _ => false

/-- Whether marks are the parts of groups up to the end.  The groups around are given by the mark
between their parts, if it has been seen, the innermost group first; `complete` says that a part has
just ended. -/
def areParts (complete : Bool) (groups : List (Option Mark)) : List Mark → Bool
  | [] => false
  | m :: rest =>
    match complete, m, groups with
    | false, .opening, groups => areParts false (none :: groups) rest
    | false, .name _, groups | false, .counted _, groups => areParts true groups rest
    | true, .closing _, [_] => rest == [.stop]
    | true, .closing _, _ :: groups => areParts true groups rest
    | true, m, between :: groups =>
      (m == .comma || m == .bar) && (between.getD m == m) && areParts false (some m :: groups) rest
    | _, _, _ => false

/-- Whether marks are a content model up to the end of the declaration. -/
def isModel : List Mark → Bool
  | [.name word, .stop] => word == "EMPTY".toList || word == "ANY".toList
  | [.opening, .keyword word, .closing none, .stop] => word == "PCDATA".toList
  | .opening :: .keyword word :: rest => word == "PCDATA".toList && isMixed rest
  | .opening :: rest => areParts false [none] rest
  | _ => false

end ChipSupport.Markup.Content
