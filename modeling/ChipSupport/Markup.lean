import ChipSupport.Markup.Node
import ChipSupport.Markup.Prolog

/-!
# Reading markup documents

A document is well-formed if its tags are nested properly and its characters and references are
allowed.  What the outermost element contains becomes data.

## Main definitions

* `Markup.attributes`, `Markup.piece` — the parts of the content of an element.
* `Markup.content` — the content of an element, and of the elements around it.
* `Markup.document`, `Markup.read` — the outermost element of a text, and its data.
-/

namespace ChipSupport.Markup

/-- A piece of the content of an element. -/
inductive Piece where
  /-- A comment or instruction. -/
  | remark
  /-- Text. -/
  | text (s : List Char)
  /-- The start of an element, which ends at once if `closed`. -/
  | start (name : String) (attributes : List (String × String)) (closed : Bool)
  /-- The end of an element. -/
  | stop (name : String)
  deriving Repr

/-- One attribute of an element at the start of a text, and the rest. -/
def attribute_ (r : Rules) (element s : List Char) : Option ((String × String) × List Char) :=
  match readName s with
  | none => none
  | some (name, rest) =>
    match dropSpace rest with
    | '=' :: rest =>
      match quotedText (dropSpace rest) with
      | none => none
      | some (raw, after) =>
        (attributeValue r.lenient (r.blanksCount element name) raw).map fun value =>
          ((String.ofList name, value), after)
    | _ => none

theorem length_attribute_lt {r : Rules} {element s rest : List Char} {a : String × String}
    (h : attribute_ r element s = some (a, rest)) : rest.length < s.length := by
  unfold attribute_ at h
  split at h
  · simp at h
  · rename_i named
    have named := length_readName_lt named
    split at h
    · rename_i found
      have found := found ▸ length_dropSpace_le _
      split at h
      · simp at h
      · rename_i quoted
        have quoted := Nat.lt_of_lt_of_le (length_quotedText_lt quoted) (length_dropSpace_le _)
        obtain ⟨_, _, e⟩ := Option.map_eq_some_iff.1 h
        cases e
        simp only [List.length_cons] at found
        omega
    · simp at h

/-- The end of a tag, whether the element ends with it, and the rest. -/
def tagEnd? : List Char → Option (Bool × List Char)
  | '>' :: rest => some (false, rest)
  | '/' :: '>' :: rest => some (true, rest)
  | _ => none

theorem length_tagEnd_lt {s rest : List Char} {closed : Bool}
    (h : tagEnd? s = some (closed, rest)) :
    rest.length < s.length := by
  unfold tagEnd? at h
  split at h <;> cases h <;> simp only [List.length_cons] <;> omega

/-- Whether one of some attributes has a name. -/
def hasName (name : String) (attributes : List (String × String)) : Bool :=
  (attributes.map Prod.fst).contains name

/-- The attributes in the tag of an element up to its end: those that come after `seen`, whether the
element ends with the tag, and the rest.  No name may occur twice. -/
def attributes (r : Rules) (element : List Char) (seen : List (String × String)) (s : List Char) :
    Option (List (String × String) × Bool × List Char) :=
  match tagEnd? (dropSpace s) with
  | some found => some (seen, found)
  | none =>
    if s.head?.any isSpace then
      match _h : attribute_ r element (dropSpace s) with
      | none => none
      | some (a, after) =>
        if hasName a.1 seen then none else attributes r element (seen ++ [a]) after
    else none
termination_by s.length
decreasing_by exact Nat.lt_of_lt_of_le (length_attribute_lt _h) (length_dropSpace_le s)

theorem length_attributes_lt {r : Rules} {element s : List Char} {seen : List (String × String)}
    {found : List (String × String) × Bool × List Char}
    (h : attributes r element seen s = some found) :
    found.2.2.length < s.length := by
  fun_induction attributes r element seen s with
  | case1 _ s _ e =>
    cases h
    exact Nat.lt_of_lt_of_le (length_tagEnd_lt e) (length_dropSpace_le s)
  | case2 => simp at h
  | case3 => simp_all
  | case4 _ s _ _ _ _ e _ ih =>
    exact Nat.lt_trans (ih h) (Nat.lt_of_lt_of_le (length_attribute_lt e) (length_dropSpace_le s))
  | case5 => simp at h

/-- The start of an element, of which the opening mark is read. -/
def startTag (r : Rules) (s : List Char) : Option (Piece × List Char) :=
  match readName s with
  | none => none
  | some (name, rest) =>
    (attributes r name [] rest).map fun p =>
      (.start (String.ofList name) (r.complete name p.1) p.2.1, p.2.2)

theorem length_startTag_lt {r : Rules} {s rest : List Char} {p : Piece}
    (h : startTag r s = some (p, rest)) : rest.length < s.length := by
  unfold startTag at h
  split at h
  · simp at h
  · rename_i named
    obtain ⟨_, found, e⟩ := Option.map_eq_some_iff.1 h
    cases e
    exact Nat.lt_trans (length_attributes_lt found) (length_readName_lt named)

/-- The end of an element, of which the opening mark is read. -/
def stopTag (s : List Char) : Option (Piece × List Char) :=
  match readName s with
  | none => none
  | some (name, rest) =>
    match dropSpace rest with
    | '>' :: after => some (.stop (String.ofList name), after)
    | _ => none

theorem length_stopTag_lt {s rest : List Char} {p : Piece} (h : stopTag s = some (p, rest)) :
    rest.length < s.length := by
  unfold stopTag at h
  split at h
  · simp at h
  · rename_i named
    split at h
    · rename_i found
      cases h
      have named := length_readName_lt named
      have found := found ▸ length_dropSpace_le _
      simp only [List.length_cons] at found
      omega
    · simp at h

/-- Text up to the next tag. -/
def plainText (r : Rules) (s : List Char) : Option (Piece × List Char) :=
  let raw := s.takeWhile (· != '<')
  if raw.all isAllowed && (splitAtMark [']', ']', '>'] raw).isNone then
    (expand r.lenient (unifyLineEnds raw)).map fun t => (.text t, s.dropWhile (· != '<'))
  else none

/-- Text that is marked as such, of which the opening mark is read. -/
def markedText (s : List Char) : Option (Piece × List Char) :=
  match splitAtMark [']', ']', '>'] s with
  | none => none
  | some (body, after) =>
    if body.all isAllowed then some (.text (unifyLineEnds body), after) else none

theorem length_markedText_le {s rest : List Char} {p : Piece} (h : markedText s = some (p, rest)) :
    rest.length ≤ s.length := by
  unfold markedText at h
  split at h
  · simp at h
  · rename_i found
    split at h
    · cases h
      exact length_splitAtMark_le found
    · simp at h

/-- The first piece of a text, and the rest. -/
def piece (r : Rules) (s : List Char) : Option (Piece × List Char) :=
  match s with
  | [] => none
  | '<' :: '/' :: rest => stopTag rest
  | '<' :: '?' :: rest => (instruction rest).map fun after => (.remark, after)
  | '<' :: '!' :: '-' :: '-' :: rest => (comment rest).map fun after => (.remark, after)
  | '<' :: '!' :: rest => (afterMark "[CDATA[".toList rest).bind markedText
  | '<' :: rest => startTag r rest
  | c :: rest => plainText r (c :: rest)

theorem length_piece_lt {r : Rules} {s rest : List Char} {p : Piece}
    (h : piece r s = some (p, rest)) : rest.length < s.length := by
  unfold piece at h
  split at h
  · simp at h
  · have := length_stopTag_lt h
    simp only [List.length_cons]
    omega
  · obtain ⟨_, found, e⟩ := Option.map_eq_some_iff.1 h
    cases e
    have := length_instruction_lt found
    simp only [List.length_cons]
    omega
  · obtain ⟨_, found, e⟩ := Option.map_eq_some_iff.1 h
    cases e
    have := length_comment_le found
    simp only [List.length_cons]
    omega
  · obtain ⟨_, found, marked⟩ := Option.bind_eq_some_iff.1 h
    have := Nat.le_trans (length_markedText_le marked) (length_afterMark_le found)
    simp only [List.length_cons]
    omega
  · have := length_startTag_lt h
    simp only [List.length_cons]
    omega
  · rename_i c s _ _ _ _ noTag
    have kept : c ≠ '<' := noTag
    unfold plainText at h
    simp only at h
    split at h
    · obtain ⟨_, _, e⟩ := Option.map_eq_some_iff.1 h
      cases e
      have := length_dropWhile_le (· != '<') s
      simp only [List.dropWhile_cons, bne_iff_ne, ne_eq, kept, not_false_eq_true, if_true,
        List.length_cons]
      omega
    · simp at h

/-- An element whose end is not read yet, with its content so far in reverse. -/
structure Pending where
  /-- The name. -/
  name : String
  /-- The attributes. -/
  attributes : List (String × String)
  /-- The content, the last part first. -/
  children : List Node := []

/-- A pending element with one more part. -/
def Pending.add (p : Pending) (n : Node) : Pending := { p with children := n :: p.children }

/-- The element of a pending one that ends. -/
def Pending.finish (p : Pending) : Node := .element p.name p.attributes p.children.reverse

/-- The outermost element and the rest of a text, from the content of the innermost pending element
on. -/
def content (r : Rules) (inner : Pending) (outer : List Pending) (s : List Char) :
    Except Fault (Node × List Char) :=
  match _h : piece r s with
  | none => .error .markupMalformed
  | some (.remark, rest) => content r inner outer rest
  | some (.text t, rest) => content r (inner.add (.text t)) outer rest
  | some (.start name attributes true, rest) =>
    content r (inner.add (.element name attributes [])) outer rest
  | some (.start name attributes false, rest) =>
    content r { name, attributes } (inner :: outer) rest
  | some (.stop name, rest) =>
    if name ≠ inner.name then .error .markupMalformed
    else match outer with
      | [] => .ok (inner.finish, rest)
      | o :: os => content r (o.add inner.finish) os rest
termination_by s.length
decreasing_by all_goals exact length_piece_lt _h

/-- The outermost element of a document. -/
def document (s : List Char) : Except Fault Node := do
  let (r, s) ← prolog s
  match s with
  | '<' :: rest =>
    match startTag r rest with
    | some (.start name attributes closed, after) =>
      let (root, after) ←
        if closed then pure (Node.element name attributes [], after)
        else content r { name, attributes } [] after
      match ← skipRemarks after with
      | [] => return root
      | _ => throw .markupMalformed
    | _ => throw .markupMalformed
  | _ => throw .markupMalformed

/-- The data of a document. -/
def read (s : String) : Except Fault Data := (document s.toList).map Node.data

end ChipSupport.Markup
