import ChipSupport.Bits
import ChipSupport.Proofs.Conditional.Nest
import ChipSupport.Proofs.Text.Numeral

/-!
# Formulas with symbols

The macros of registers and the sections of scripts state numbers by formulas, in which symbols
stand for numbers that are defined elsewhere.  A formula is evaluated from its text: the text is
split into tokens, and only operations of one kind stand side by side, from left to right, so that
no rule of precedence is needed.  Numbers are unbounded.

## Main definitions

* `Formula.scan` — the tokens of a text.
* `Formula.Frame` — what has been read behind an opening parenthesis.
* `Formula.evaluate` — the number of a formula, for given numbers of the symbols.

## Main results

* `Formula.evaluate_decimal`, `Formula.evaluate_hex` — numbers in parentheses.
* `Formula.evaluate_hexWord_iff` — numbers that stand by themselves.
* `Formula.evaluate_masked` — a symbol that masks another one, which is shifted.
* `Formula.evaluate_place` — a place in a table, from the address of the table.
-/

namespace ChipSupport.Formula

open Conditional (isWordChar)

/-! ### Tokens -/

/-- The operations. -/
inductive Operator where
  | conj
  | shift
  | plus
  | times
  deriving DecidableEq, Repr

/-- The result of an operation.  Nothing is shifted by a negative number. -/
def Operator.apply : Operator → Int → Int → Option Int
  | conj, a, b => some (Bits.conj a b)
  | shift, a, b => if 0 ≤ b then some (Bits.shiftLeft a b.toNat) else none
  | plus, a, b => some (a + b)
  | times, a, b => some (a * b)

/-- The parts of a formula. -/
inductive Token where
  | opening
  | closing
  | operator (o : Operator)
  /-- A run of letters, digits and underscores. -/
  | word (cs : List Char)
  deriving DecidableEq, Repr

/-- The word that ends behind some characters.  `_U_` gives a number its type, and what it applies
to stands for the number. -/
def flush (cs : List Char) : List Token :=
  if cs = [] ∨ cs = ['_', 'U', '_'] then [] else [.word cs]

/-- The tokens that a character between words stands for. -/
def mark : Char → Option (List Token)
  | ' ' => some []
  | '(' => some [.opening]
  | ')' => some [.closing]
  | '&' => some [.operator .conj]
  | '+' => some [.operator .plus]
  | '*' => some [.operator .times]
  | _ => none

/-- The tokens of a text behind the beginning of a word. -/
def scan (word : List Char) : List Char → Option (List Token)
  | [] => some (flush word)
  | c :: rest =>
    if isWordChar c then scan (word ++ [c]) rest
    else if c = '<' then
      match rest with
      | '<' :: rest => (scan [] rest).map fun ts => flush word ++ .operator .shift :: ts
      | _ => none
    else (mark c).bind fun m => (scan [] rest).map fun ts => flush word ++ m ++ ts

/-! ### Evaluation -/

/-- What has been read behind an opening parenthesis. -/
inductive Frame where
  | empty
  | value (a : Int)
  /-- A value that an operation is applied to. -/
  | pending (a : Int) (o : Operator)
  /-- The result of operations of one kind, behind which only that kind may follow. -/
  | applied (a : Int) (o : Operator)
  deriving DecidableEq, Repr

namespace Frame

/-- A value is read. -/
def give (b : Int) : Frame → Option Frame
  | empty => some (value b)
  | pending a o => (o.apply a b).map fun c => applied c o
  | _ => none

/-- An operation is read. -/
def operate (o : Operator) : Frame → Option Frame
  | value a => some (pending a o)
  | applied a o' => if o' = o then some (pending a o) else none
  | _ => none

/-- The value between parentheses. -/
def result : Frame → Option Int
  | value a => some a
  | applied a _ => some a
  | _ => none

end Frame

variable (symbols : String → Option Int)

/-- The value of a word: a number of base sixteen or ten, or that of a symbol. -/
def wordValue : List Char → Option Int
  | '0' :: 'x' :: cs => (Numeral.readDigits 16 cs).map Int.ofNat
  | [] => none
  | c :: cs =>
    if c.isDigit then (Numeral.readDigits 10 (c :: cs)).map Int.ofNat
    else symbols (String.ofList (c :: cs))

/-- A token is read within the parentheses that are open, the innermost first. -/
def step : List Frame → Token → Option (List Frame)
  | fs, .opening => some (.empty :: fs)
  | f :: g :: fs, .closing => f.result.bind fun a => (g.give a).map (· :: fs)
  | f :: fs, .operator o => (f.operate o).map (· :: fs)
  | f :: fs, .word cs => (wordValue symbols cs).bind fun a => (f.give a).map (· :: fs)
  | _, _ => none

/-- Tokens are read one after the other. -/
def run (fs : List Frame) (ts : List Token) : Option (List Frame) := ts.foldlM (step symbols) fs

/-- The value of a formula of which everything has been read. -/
def finish : List Frame → Option Int
  | [f] => f.result
  | _ => none

/-- The number that a formula stands for if symbols stand for numbers. -/
def evaluate (text : String) : Option Int :=
  (scan [] text.toList).bind fun ts => (run symbols [.empty] ts).bind finish

/-! ### The tokens of a text -/

@[simp] theorem flush_nil : flush [] = [] := rfl

@[simp] theorem flush_type : flush ['_', 'U', '_'] = [] := rfl

theorem flush_of_ne {cs : List Char} (hne : cs ≠ []) (htype : cs ≠ ['_', 'U', '_']) :
    flush cs = [.word cs] := if_neg (not_or_intro hne htype)

@[simp] theorem scan_nil (word : List Char) : scan word [] = some (flush word) := rfl

/-- Letters, digits and underscores belong to the word that has begun. -/
theorem scan_append {cs : List Char} (hcs : cs.all isWordChar = true) (word rest : List Char) :
    scan word (cs ++ rest) = scan (word ++ cs) rest := by
  induction cs generalizing word with
  | nil => rw [List.nil_append, List.append_nil]
  | cons c cs ih =>
    rw [List.all_cons, Bool.and_eq_true] at hcs
    rw [List.cons_append, scan.eq_def]
    simp only [hcs.1, if_true]
    rw [ih hcs.2, List.append_assoc, List.singleton_append]

/-- A character between words ends the word before it. -/
theorem scan_mark {c : Char} {m : List Token} (hm : mark c = some m)
    (hc : isWordChar c = false) (hshift : c ≠ '<') (word rest : List Char) :
    scan word (c :: rest) = (scan [] rest).map fun ts => flush word ++ m ++ ts := by
  rw [scan.eq_def]
  simp only [hc, Bool.false_eq_true, if_false, hshift, hm, Option.bind_some]

theorem scan_space (word rest : List Char) :
    scan word (' ' :: rest) = (scan [] rest).map fun ts => flush word ++ [] ++ ts :=
  scan_mark rfl (by decide) (by decide) word rest

theorem scan_opening (word rest : List Char) :
    scan word ('(' :: rest) = (scan [] rest).map fun ts => flush word ++ [.opening] ++ ts :=
  scan_mark rfl (by decide) (by decide) word rest

theorem scan_closing (word rest : List Char) :
    scan word (')' :: rest) = (scan [] rest).map fun ts => flush word ++ [.closing] ++ ts :=
  scan_mark rfl (by decide) (by decide) word rest

theorem scan_conj (word rest : List Char) :
    scan word ('&' :: rest) = (scan [] rest).map fun ts => flush word ++ [.operator .conj] ++ ts :=
  scan_mark rfl (by decide) (by decide) word rest

theorem scan_plus (word rest : List Char) :
    scan word ('+' :: rest) = (scan [] rest).map fun ts => flush word ++ [.operator .plus] ++ ts :=
  scan_mark rfl (by decide) (by decide) word rest

theorem scan_times (word rest : List Char) :
    scan word ('*' :: rest) = (scan [] rest).map fun ts => flush word ++ [.operator .times] ++ ts :=
  scan_mark rfl (by decide) (by decide) word rest

theorem scan_shift (word rest : List Char) :
    scan word ('<' :: '<' :: rest)
      = (scan [] rest).map fun ts => flush word ++ .operator .shift :: ts := rfl

/-- A sign is in no formula. -/
theorem scan_minus (word rest : List Char) : scan word ('-' :: rest) = none := by
  have hword : isWordChar '-' = false := by decide
  have hshift : '-' ≠ '<' := by decide
  rw [scan.eq_def]
  simp only [hword, Bool.false_eq_true, if_false, hshift]
  rfl

/-! ### The words of a formula -/

/-- Texts that are symbols: letters, digits and underscores, without a digit at the beginning. -/
def IsSymbol (s : String) : Prop :=
  s.toList.all isWordChar = true ∧ s.toList.head?.any (!·.isDigit) = true ∧ s ≠ "_U_"

instance (s : String) : Decidable (IsSymbol s) := inferInstanceAs (Decidable (_ ∧ _ ∧ _))

namespace IsSymbol

variable {s : String}

theorem flush_eq (h : IsSymbol s) : flush s.toList = [.word s.toList] := by
  obtain ⟨-, hhead, htype⟩ := h
  refine flush_of_ne (fun hnil => ?_) fun heq => htype (String.toList_inj.mp heq)
  rw [hnil] at hhead
  cases hhead

theorem wordValue_eq (h : IsSymbol s) : wordValue symbols s.toList = symbols s := by
  obtain ⟨-, hhead, -⟩ := h
  unfold wordValue
  split
  next cs heq =>
    rw [heq] at hhead
    cases hhead
  next heq =>
    rw [heq] at hhead
    cases hhead
  next c cs _ heq =>
    rw [heq] at hhead
    have hc : c.isDigit = false := by simpa using hhead
    rw [if_neg (by rw [hc]; exact Bool.false_ne_true), ← heq, String.ofList_toList]

/-- A symbol with an ending is a symbol. -/
theorem append (h : IsSymbol s) {t : String} (ht : t.toList.all isWordChar = true)
    (hlength : 2 < t.toList.length) : IsSymbol (s ++ t) := by
  obtain ⟨hword, hhead, -⟩ := h
  rw [IsSymbol, String.toList_append]
  cases hs : s.toList with
  | nil =>
    rw [hs] at hhead
    cases hhead
  | cons c cs =>
    rw [hs] at hword hhead
    refine ⟨by rw [List.all_append, hword, ht, Bool.true_and], hhead, fun heq => ?_⟩
    -- the mark of a type is too short
    have hlen := congrArg (fun s => s.toList.length) heq
    simp [hs] at hlen
    omega

end IsSymbol

/-- The word of a number of base sixteen. -/
def hexWord (n width : Nat) : List Char := '0' :: 'x' :: (Numeral.hex n width).toList

theorem all_isWordChar_of_isAlphanum {cs : List Char} (h : ∀ c ∈ cs, c.isAlphanum = true) :
    cs.all isWordChar = true :=
  List.all_eq_true.mpr fun c hc => by rw [isWordChar, h c hc, Bool.true_or]

theorem all_isWordChar_hexWord (n width : Nat) : (hexWord n width).all isWordChar = true :=
  all_isWordChar_of_isAlphanum <| List.forall_mem_cons.mpr ⟨rfl, List.forall_mem_cons.mpr
    ⟨rfl, fun _ hc => Numeral.isAlphanum_of_mem_hex hc⟩⟩

theorem all_isWordChar_decimal (n : Nat) : (Numeral.decimal n).toList.all isWordChar = true :=
  all_isWordChar_of_isAlphanum fun _ hc => Numeral.isAlphanum_of_mem_decimal hc

theorem flush_hexWord (n width : Nat) : flush (hexWord n width) = [.word (hexWord n width)] :=
  flush_of_ne (List.cons_ne_nil _ _) fun h => absurd (List.cons.inj h).1 (by decide)

/-- A number of base ten begins with a digit. -/
theorem exists_decimal (n : Nat) : ∃ d < 10, ∃ cs,
    (Numeral.decimal n).toList = Numeral.digitChar d :: cs ∧ ∀ c ∈ cs, c.isDigit = true := by
  have hdigit : ∀ d < 10, (Numeral.digitChar d).isDigit = true := by decide
  have hlt : ∀ d ∈ Numeral.digits 10 n, d < 10 := Numeral.digits_lt (by decide) n
  rw [Numeral.toList_decimal_natCast]
  cases hdigits : Numeral.digits 10 n with
  | nil => exact absurd hdigits (Numeral.digits_ne_nil 10 n)
  | cons d ds =>
    rw [hdigits, List.forall_mem_cons] at hlt
    refine ⟨d, hlt.1, _, rfl, fun c hc => ?_⟩
    obtain ⟨e, he, rfl⟩ := List.mem_map.mp hc
    exact hdigit e (hlt.2 e he)

theorem flush_decimal (n : Nat) :
    flush (Numeral.decimal n).toList = [.word (Numeral.decimal n).toList] := by
  have hunderscore : ∀ d < 10, Numeral.digitChar d ≠ '_' := by decide
  obtain ⟨d, hd, cs, hcs, -⟩ := exists_decimal n
  rw [hcs]
  exact flush_of_ne (List.cons_ne_nil _ _) fun h => hunderscore d hd (List.cons.inj h).1

@[simp] theorem wordValue_hexWord (n width : Nat) :
    wordValue symbols (hexWord n width) = some (n : Int) := by
  rw [hexWord, wordValue, Numeral.readDigits_hex]
  rfl

@[simp] theorem wordValue_decimal (n : Nat) :
    wordValue symbols (Numeral.decimal n).toList = some (n : Int) := by
  have hdigit : ∀ d < 10, (Numeral.digitChar d).isDigit = true := by decide
  obtain ⟨d, hd, cs, hcs, hrest⟩ := exists_decimal n
  rw [wordValue.eq_def, hcs]
  split
  next heq =>
    -- the mark of base sixteen is no digit
    rw [(List.cons.inj heq).2, List.forall_mem_cons] at hrest
    exact absurd hrest.1 (by decide)
  next heq => cases heq
  next heq =>
    rw [← heq, ← hcs, (List.cons.inj heq).1.symm, if_pos (hdigit d hd), Numeral.readDigits_decimal,
      Option.map_some, Int.ofNat_eq_natCast]

/-! ### The numbers of formulas -/

/-- A number of base ten in parentheses stands for itself. -/
theorem evaluate_decimal (n : Nat) :
    evaluate symbols ("(" ++ Numeral.decimal n ++ ")") = some (n : Int) := by
  have htext : ("(" ++ Numeral.decimal n ++ ")").toList
      = '(' :: ((Numeral.decimal n).toList ++ [')']) := by simp
  have hscan : scan [] ('(' :: ((Numeral.decimal n).toList ++ [')']))
      = some [.opening, .word (Numeral.decimal n).toList, .closing] := by
    simp only [scan_opening, scan_closing, scan_append (all_isWordChar_decimal n), List.nil_append,
      flush_decimal, flush_nil, scan_nil, Option.map_some]
    rfl
  rw [evaluate, htext, hscan]
  simp [run, step, Frame.give, Frame.result, finish]

/-- A number of base sixteen that is given a type stands for itself. -/
theorem evaluate_hex (n width : Nat) :
    evaluate symbols ("_U_(0x" ++ Numeral.hex n width ++ ")") = some (n : Int) := by
  have htext : ("_U_(0x" ++ Numeral.hex n width ++ ")").toList
      = ['_', 'U', '_'] ++ '(' :: (hexWord n width ++ [')']) := by simp [hexWord]
  have htype : ['_', 'U', '_'].all isWordChar = true := rfl
  have hscan : scan [] (['_', 'U', '_'] ++ '(' :: (hexWord n width ++ [')']))
      = some [.opening, .word (hexWord n width), .closing] := by
    simp only [scan_append htype, scan_opening, scan_closing,
      scan_append (all_isWordChar_hexWord n width), List.nil_append, flush_hexWord, flush_type,
      flush_nil, scan_nil, Option.map_some]
    rfl
  rw [evaluate, htext, hscan]
  simp [run, step, Frame.give, Frame.result, finish]

/-- A number of base sixteen stands for itself, and what is written for a negative one stands for no
number. -/
theorem evaluate_hexWord_iff {n a : Int} {width : Nat} :
    evaluate symbols ("0x" ++ Numeral.hex n width) = some a ↔ 0 ≤ n ∧ n = a := by
  rcases Int.lt_or_le n 0 with hneg | hpos
  · -- the sign ends the reading
    obtain ⟨rest, hrest⟩ : ∃ rest, ("0x" ++ Numeral.hex n width).toList
        = ['0', 'x'] ++ '-' :: rest := by
      simp [Numeral.hex, Numeral.sign, hneg]
    have hbase : ['0', 'x'].all isWordChar = true := rfl
    rw [evaluate, hrest, scan_append hbase, scan_minus, Option.bind_none]
    exact iff_of_false (Option.some_ne_none a).symm fun h => absurd h.1 (by omega)
  · lift n to Nat using hpos
    have htext : ("0x" ++ Numeral.hex n width).toList = hexWord n width ++ [] := by simp [hexWord]
    have hscan : scan [] (hexWord n width ++ []) = some [.word (hexWord n width)] := by
      simp only [scan_append (all_isWordChar_hexWord n width), List.nil_append, flush_hexWord,
        scan_nil]
    rw [evaluate, htext, hscan]
    simp [run, step, Frame.give, Frame.result, finish]

section Symbols

variable {symbols}

/-- A symbol that masks another one, which is shifted by a third. -/
theorem evaluate_masked {mask argument position : String} (hmask : IsSymbol mask)
    (hargument : IsSymbol argument) (hposition : IsSymbol position) {m a : Int} {p : Nat}
    (hm : symbols mask = some m) (ha : symbols argument = some a) (hp : symbols position = some p) :
    evaluate symbols ("(" ++ mask ++ " & ((" ++ argument ++ ") << " ++ position ++ "))")
      = some (Bits.conj m (Bits.shiftLeft a p)) := by
  have htext : ("(" ++ mask ++ " & ((" ++ argument ++ ") << " ++ position ++ "))").toList
      = '(' :: (mask.toList ++ ' ' :: '&' :: ' ' :: '(' :: '(' :: (argument.toList ++ ')' :: ' '
        :: '<' :: '<' :: ' ' :: (position.toList ++ [')', ')']))) := by simp
  have hscan : scan [] ('(' :: (mask.toList ++ ' ' :: '&' :: ' ' :: '(' :: '(' ::
      (argument.toList ++ ')' :: ' ' :: '<' :: '<' :: ' ' :: (position.toList ++ [')', ')']))))
      = some [.opening, .word mask.toList, .operator .conj, .opening, .opening,
        .word argument.toList, .closing, .operator .shift, .word position.toList, .closing,
        .closing] := by
    simp only [scan_opening, scan_closing, scan_space, scan_conj, scan_shift,
      scan_append hmask.1, scan_append hargument.1, scan_append hposition.1, List.nil_append,
      hmask.flush_eq, hargument.flush_eq, hposition.flush_eq, flush_nil, scan_nil,
      Option.map_some]
    rfl
  rw [evaluate, htext, hscan]
  simp [run, step, hmask.wordValue_eq, hargument.wordValue_eq, hposition.wordValue_eq, hm, ha, hp,
    Frame.give, Frame.operate, Frame.result, Operator.apply, finish]

/-- A place in a table that begins at a distance from an address, where a symbol that is shifted
gives the size of the places. -/
theorem evaluate_place {base spacing : String} (hbase : IsSymbol base) (hspacing : IsSymbol spacing)
    {b s : Int} (hb : symbols base = some b) (hs : symbols spacing = some s)
    (distance shift n : Nat) :
    evaluate symbols (" " ++ base ++ " + 0x" ++ Numeral.hex distance ++ " + ((" ++ spacing
        ++ " << " ++ Numeral.natural shift ++ ") * " ++ Numeral.natural n ++ ") ")
      = some (b + distance + Bits.shiftLeft s shift * n) := by
  rw [← Numeral.decimal_natCast shift, ← Numeral.decimal_natCast n]
  have htext : (" " ++ base ++ " + 0x" ++ Numeral.hex distance ++ " + ((" ++ spacing
        ++ " << " ++ Numeral.decimal shift ++ ") * " ++ Numeral.decimal n ++ ") ").toList
      = ' ' :: (base.toList ++ ' ' :: '+' :: ' ' :: (hexWord distance 0 ++ ' ' :: '+' :: ' ' :: '('
        :: '(' :: (spacing.toList ++ ' ' :: '<' :: '<' :: ' ' :: ((Numeral.decimal shift).toList
        ++ ')' :: ' ' :: '*' :: ' ' :: ((Numeral.decimal n).toList ++ [')', ' ']))))) := by
    simp [hexWord]
  have hscan : scan [] (' ' :: (base.toList ++ ' ' :: '+' :: ' ' :: (hexWord distance 0 ++ ' '
        :: '+' :: ' ' :: '(' :: '(' :: (spacing.toList ++ ' ' :: '<' :: '<' :: ' '
        :: ((Numeral.decimal shift).toList ++ ')' :: ' ' :: '*' :: ' '
        :: ((Numeral.decimal n).toList ++ [')', ' ']))))))
      = some [.word base.toList, .operator .plus, .word (hexWord distance 0), .operator .plus,
        .opening, .opening, .word spacing.toList, .operator .shift,
        .word (Numeral.decimal shift).toList, .closing, .operator .times,
        .word (Numeral.decimal n).toList, .closing] := by
    simp only [scan_opening, scan_closing, scan_space, scan_plus, scan_times, scan_shift,
      scan_append hbase.1, scan_append hspacing.1, scan_append (all_isWordChar_hexWord distance 0),
      scan_append (all_isWordChar_decimal _), List.nil_append, hbase.flush_eq, hspacing.flush_eq,
      flush_hexWord, flush_decimal, flush_nil, scan_nil, Option.map_some]
    rfl
  rw [evaluate, htext, hscan]
  simp [run, step, hbase.wordValue_eq, hspacing.wordValue_eq, hb, hs, Frame.give, Frame.operate,
    Frame.result, Operator.apply, finish]

end Symbols

end ChipSupport.Formula
