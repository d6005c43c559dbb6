import ChipSupport.Bits
import ChipSupport.Line
import ChipSupport.Proofs.Text.Numeral

/-!
# Numbers of macros

The body of a macro for a register is an expression of numbers, the parameter `v`, shifts, `&` and
`|`, with parentheses around each operation.  It is evaluated as a compiler reads it: the text is
split into tokens, and each pair of parentheses holds at most one operation, so that no rule of
precedence is needed.  Numbers are unbounded.

## Main definitions

* `Expression.scan` — the tokens of a text.
* `Expression.Frame` — what has been read behind an opening parenthesis.
* `Expression.evaluate` — the number of an expression for a value of the parameter.
* `Line.number` — the number that a definition stands for.

## Main results

* `Expression.evaluate_number` — a number in parentheses.
* `Expression.evaluate_setter` — a number joined with the parameter, shifted and masked.
-/

namespace ChipSupport

namespace Expression

/-! ### Tokens -/

/-- The operations. -/
inductive Operator where
  | conj
  | disj
  | shift
  deriving DecidableEq, Repr

/-- The result of an operation.  Nothing is shifted by a negative number. -/
def Operator.apply : Operator → Int → Int → Option Int
  | conj, a, b => some (Bits.conj a b)
  | disj, a, b => some (Bits.disj a b)
  | shift, a, b => if 0 ≤ b then some (Bits.shiftLeft a b.toNat) else none

/-- The parts of an expression. -/
inductive Token where
  | opening
  | closing
  | operator (o : Operator)
  /-- A run of letters and digits. -/
  | word (cs : List Char)
  deriving DecidableEq, Repr

/-- The word that ends behind some letters and digits, if there are any. -/
def flush (cs : List Char) : List Token := if cs.isEmpty then [] else [.word cs]

/-- The tokens that a character between words stands for. -/
def mark : Char → Option (List Token)
  | ' ' => some []
  | '(' => some [.opening]
  | ')' => some [.closing]
  | '&' => some [.operator .conj]
  | '|' => some [.operator .disj]
  | _ => none

/-- The tokens of a text behind the beginning of a word. -/
def scan (word : List Char) : List Char → Option (List Token)
  | [] => some (flush word)
  | c :: rest =>
    if c.isAlphanum then scan (word ++ [c]) rest
    else if c = '<' then
      match rest with
      | '<' :: rest => (scan [] rest).map fun ts => flush word ++ .operator .shift :: ts
      | _ => none
    else (mark c).bind fun m => (scan [] rest).map fun ts => flush word ++ m ++ ts

/-! ### Evaluation -/

/-- What has been read behind an opening parenthesis. -/
inductive Frame where
  | empty
  | value (a : Int)
  /-- A value that an operation is applied to. -/
  | pending (a : Int) (o : Operator)
  /-- The result of an operation, behind which no further one may follow. -/
  | applied (a : Int)
  deriving DecidableEq, Repr

namespace Frame

/-- A value is read. -/
def give (b : Int) : Frame → Option Frame
  | empty => some (value b)
  | pending a o => (o.apply a b).map applied
  | _ => none

/-- An operation is read. -/
def operate (o : Operator) : Frame → Option Frame
  | value a => some (pending a o)
  | _ => none

/-- The value between parentheses. -/
def result : Frame → Option Int
  | value a => some a
  | applied a => some a
  | _ => none

end Frame

/-- The value of a word: the parameter, or a number of base sixteen or ten. -/
def wordValue (arg : Int) : List Char → Option Int
  | ['v'] => some arg
  | '0' :: 'x' :: cs => (Numeral.readDigits 16 cs).map Int.ofNat
  | cs => (Numeral.readDigits 10 cs).map Int.ofNat

/-- A token is read within the parentheses that are open, the innermost first. -/
def step (arg : Int) : List Frame → Token → Option (List Frame)
  | fs, .opening => some (.empty :: fs)
  | f :: g :: fs, .closing => f.result.bind fun a => (g.give a).map (· :: fs)
  | f :: fs, .operator o => (f.operate o).map (· :: fs)
  | f :: fs, .word cs => (wordValue arg cs).bind fun a => (f.give a).map (· :: fs)
  | _, _ => none

/-- Tokens are read one after the other. -/
def run (arg : Int) (fs : List Frame) (ts : List Token) : Option (List Frame) :=
  ts.foldlM (step arg) fs

/-- The value of an expression of which everything has been read. -/
def finish : List Frame → Option Int
  | [f] => f.result
  | _ => none

/-- The number that an expression stands for if the parameter `v` stands for `arg`. -/
def evaluate (arg : Int) (text : String) : Option Int :=
  (scan [] text.toList).bind fun ts => (run arg [.empty] ts).bind finish

end Expression

/-- The number that a definition stands for, with `arg` for the parameter `v`. -/
def Line.number (arg : Int) : Line → Option Int
  | .define _ value _ => Expression.evaluate arg value
  | .defineWide _ value => Expression.evaluate arg value
  | _ => none

namespace Expression

/-! ### The tokens of a text -/

@[simp] theorem flush_nil : flush [] = [] := rfl

theorem flush_of_ne_nil {cs : List Char} (h : cs ≠ []) : flush cs = [.word cs] := by
  cases cs with
  | nil => exact absurd rfl h
  | cons c cs => rfl

@[simp] theorem scan_nil (word : List Char) : scan word [] = some (flush word) := rfl

/-- Letters and digits belong to the word that has begun. -/
theorem scan_append {cs : List Char} (hcs : ∀ c ∈ cs, c.isAlphanum = true) (word rest : List Char) :
    scan word (cs ++ rest) = scan (word ++ cs) rest := by
  induction cs generalizing word with
  | nil => rw [List.nil_append, List.append_nil]
  | cons c cs ih =>
    have hc : c.isAlphanum = true := hcs c List.mem_cons_self
    have hrest : ∀ d ∈ cs, d.isAlphanum = true := fun d hd => hcs d (List.mem_cons_of_mem c hd)
    rw [List.cons_append, scan.eq_def]
    simp only [hc, if_true]
    rw [ih hrest, List.append_assoc, List.singleton_append]

/-- A character between words ends the word before it. -/
theorem scan_mark {c : Char} {m : List Token} (hm : mark c = some m)
    (hc : c.isAlphanum = false) (hshift : c ≠ '<') (word rest : List Char) :
    scan word (c :: rest) = (scan [] rest).map fun ts => flush word ++ m ++ ts := by
  rw [scan.eq_def]
  simp only [hc, Bool.false_eq_true, if_false, hshift, hm, Option.bind_some]

theorem scan_space (word rest : List Char) :
    scan word (' ' :: rest) = (scan [] rest).map fun ts => flush word ++ [] ++ ts :=
  scan_mark rfl (by decide) (by decide) word rest

theorem scan_opening (word rest : List Char) :
    scan word ('(' :: rest) = (scan [] rest).map fun ts => flush word ++ [.opening] ++ ts :=
  scan_mark rfl (by decide) (by decide) word rest

theorem scan_closing (word rest : List Char) :
    scan word (')' :: rest) = (scan [] rest).map fun ts => flush word ++ [.closing] ++ ts :=
  scan_mark rfl (by decide) (by decide) word rest

theorem scan_conj (word rest : List Char) :
    scan word ('&' :: rest) = (scan [] rest).map fun ts => flush word ++ [.operator .conj] ++ ts :=
  scan_mark rfl (by decide) (by decide) word rest

theorem scan_disj (word rest : List Char) :
    scan word ('|' :: rest) = (scan [] rest).map fun ts => flush word ++ [.operator .disj] ++ ts :=
  scan_mark rfl (by decide) (by decide) word rest

theorem scan_shift (word rest : List Char) :
    scan word ('<' :: '<' :: rest)
      = (scan [] rest).map fun ts => flush word ++ .operator .shift :: ts := rfl

/-! ### The words of numbers -/

/-- The word of a number of base sixteen. -/
def hexWord (n width : Nat) : List Char := '0' :: 'x' :: (Numeral.hex n width).toList

theorem isAlphanum_of_mem_hexWord {n width : Nat} : ∀ c ∈ hexWord n width, c.isAlphanum = true := by
  intro c hc
  rcases List.mem_cons.mp hc with rfl | hc
  · decide
  · rcases List.mem_cons.mp hc with rfl | hc
    · decide
    · exact Numeral.isAlphanum_of_mem_hex hc

theorem flush_hexWord (n width : Nat) : flush (hexWord n width) = [.word (hexWord n width)] := rfl

theorem flush_decimal (n : Nat) :
    flush (Numeral.decimal n).toList = [.word (Numeral.decimal n).toList] := by
  refine flush_of_ne_nil fun h => ?_
  rw [Numeral.toList_decimal_natCast, List.map_eq_nil_iff] at h
  exact Numeral.digits_ne_nil 10 n h

@[simp] theorem wordValue_parameter (arg : Int) : wordValue arg ['v'] = some arg := rfl

@[simp] theorem wordValue_hexWord (arg : Int) (n width : Nat) :
    wordValue arg (hexWord n width) = some (n : Int) := by
  rw [hexWord, wordValue, Numeral.readDigits_hex]
  rfl

@[simp] theorem wordValue_decimal (arg : Int) (n : Nat) :
    wordValue arg (Numeral.decimal n).toList = some (n : Int) := by
  -- neither the parameter nor the mark of base sixteen is a digit of base ten
  have hdigit {c : Char} (hc : c ∈ (Numeral.decimal n).toList) :
      ∃ d < 10, c = Numeral.digitChar d := by
    rw [Numeral.toList_decimal_natCast] at hc
    obtain ⟨d, hd, rfl⟩ := List.mem_map.mp hc
    exact ⟨d, Numeral.digits_lt (by decide) n d hd, rfl⟩
  have hparameter : ∀ d < 10, 'v' ≠ Numeral.digitChar d := by decide
  have hmark : ∀ d < 10, 'x' ≠ Numeral.digitChar d := by decide
  unfold wordValue
  split
  next heq =>
    rw [heq] at hdigit
    obtain ⟨d, hd, hchar⟩ := hdigit List.mem_cons_self
    exact absurd hchar (hparameter d hd)
  next cs heq =>
    rw [heq] at hdigit
    obtain ⟨d, hd, hchar⟩ := hdigit (List.mem_cons_of_mem _ List.mem_cons_self)
    exact absurd hchar (hmark d hd)
  next => rw [Numeral.readDigits_decimal, Option.map_some, Int.ofNat_eq_natCast]

/-! ### Steps -/

theorem run_cons {arg : Int} {fs fs' : List Frame} {t : Token} (h : step arg fs t = some fs')
    (ts : List Token) : run arg fs (t :: ts) = run arg fs' ts := by
  rw [run, List.foldlM_cons, h]
  rfl

theorem step_opening (arg : Int) (fs : List Frame) :
    step arg fs .opening = some (.empty :: fs) := by
  cases fs <;> rfl

theorem step_closing (arg : Int) {f g g' : Frame} {a : Int} (hf : f.result = some a)
    (hg : g.give a = some g') (fs : List Frame) :
    step arg (f :: g :: fs) .closing = some (g' :: fs) := by
  rw [step, hf, Option.bind_some, hg, Option.map_some]

theorem step_operator (arg : Int) (a : Int) (o : Operator) (fs : List Frame) :
    step arg (.value a :: fs) (.operator o) = some (.pending a o :: fs) := by
  cases fs <;> rfl

theorem step_word (arg : Int) {f f' : Frame} {cs : List Char} {a : Int}
    (hcs : wordValue arg cs = some a) (hf : f.give a = some f') (fs : List Frame) :
    step arg (f :: fs) (.word cs) = some (f' :: fs) := by
  cases fs <;> rw [step, hcs, Option.bind_some, hf, Option.map_some]

/-! ### The numbers of macros -/

/-- A number in parentheses stands for itself. -/
theorem evaluate_number (arg : Int) (n width : Nat) :
    evaluate arg ("(0x" ++ Numeral.hex n width ++ ")") = some (n : Int) := by
  have htext : ("(0x" ++ Numeral.hex n width ++ ")").toList
      = '(' :: (hexWord n width ++ [')']) := by
    simp [hexWord]
  have hscan : scan [] ('(' :: (hexWord n width ++ [')']))
      = some [.opening, .word (hexWord n width), .closing] := by
    rw [scan_opening, scan_append isAlphanum_of_mem_hexWord, scan_closing]
    rfl
  rw [evaluate, htext, hscan]
  rw [Option.bind_some, run_cons (step_opening arg _),
    run_cons (step_word arg (wordValue_hexWord arg n width) rfl _),
    run_cons (step_closing arg rfl rfl _)]
  rfl

/-- A number that is joined with the parameter, which is shifted and masked before. -/
theorem evaluate_setter (arg : Int) (rest position mask width : Nat) :
    evaluate arg ("(0x" ++ Numeral.hex rest width ++ " | (((v) << " ++ Numeral.decimal position
        ++ ") & 0x" ++ Numeral.hex mask width ++ "))")
      = some (Bits.disj rest (Bits.conj (Bits.shiftLeft arg position) mask)) := by
  have hparameter : ∀ c ∈ ['v'], c.isAlphanum = true := List.forall_mem_singleton.mpr rfl
  have hdecimal : ∀ c ∈ (Numeral.decimal position).toList, c.isAlphanum = true :=
    fun c hc => Numeral.isAlphanum_of_mem_decimal hc
  have htext : ("(0x" ++ Numeral.hex rest width ++ " | (((v) << " ++ Numeral.decimal position
        ++ ") & 0x" ++ Numeral.hex mask width ++ "))").toList
      = '(' :: (hexWord rest width ++ ' ' :: '|' :: ' ' :: '(' :: '(' :: '(' :: (['v'] ++ ')'
        :: ' ' :: '<' :: '<' :: ' ' :: ((Numeral.decimal position).toList ++ ')' :: ' ' :: '&'
        :: ' ' :: (hexWord mask width ++ [')', ')'])))) := by
    simp [hexWord]
  have hscan : scan [] ('(' :: (hexWord rest width ++ ' ' :: '|' :: ' ' :: '(' :: '(' :: '('
        :: (['v'] ++ ')' :: ' ' :: '<' :: '<' :: ' ' :: ((Numeral.decimal position).toList
        ++ ')' :: ' ' :: '&' :: ' ' :: (hexWord mask width ++ [')', ')'])))))
      = some [.opening, .word (hexWord rest width), .operator .disj, .opening, .opening, .opening,
        .word ['v'], .closing, .operator .shift, .word (Numeral.decimal position).toList, .closing,
        .operator .conj, .word (hexWord mask width), .closing, .closing] := by
    simp only [scan_opening, scan_closing, scan_space, scan_conj, scan_disj, scan_shift,
      scan_append isAlphanum_of_mem_hexWord, scan_append hparameter, scan_append hdecimal,
      List.nil_append, flush_hexWord, flush_decimal, scan_nil, Option.map_some]
    rfl
  have hshift : (Frame.pending arg .shift).give position
      = some (.applied (Bits.shiftLeft arg position)) := by
    rw [Frame.give, Operator.apply, if_pos (Int.natCast_nonneg position)]
    rfl
  -- the frames that are open are those of the parameter, the shift, the mask and the whole
  rw [evaluate, htext, hscan, Option.bind_some, run_cons (step_opening arg _),
    run_cons (step_word arg (wordValue_hexWord arg rest width) rfl _),
    run_cons (step_operator arg _ .disj _), run_cons (step_opening arg _),
    run_cons (step_opening arg _), run_cons (step_opening arg _),
    run_cons (step_word arg (wordValue_parameter arg) rfl _), run_cons (step_closing arg rfl rfl _),
    run_cons (step_operator arg _ .shift _),
    run_cons (step_word arg (wordValue_decimal arg position) hshift _),
    run_cons (step_closing arg rfl rfl _), run_cons (step_operator arg _ .conj _),
    run_cons (step_word arg (wordValue_hexWord arg mask width) rfl _),
    run_cons (step_closing arg rfl rfl _), run_cons (step_closing arg rfl rfl _)]
  rfl

end Expression

end ChipSupport
