import DispatchGen.Proofs.Toml.Quoted
import DispatchGen.Toml.Document
import DispatchGen.Toml.Printer
import Mathlib.Data.Option.Basic

/-!
# Values without parts are read as they were written

Strings, integers and booleans, in the order in which `scalarValue` tries its kinds. A kind that is
tried before the right one must fail on the text: a number is no date and no float, because neither
can end where the number does (`Ends`).
-/

namespace DispatchGen.Toml

open Reader

/-- What may stand behind a value: the end of its line, a comma, a blank, or the end of an array. -/
def Ends (rest : List Char) : Prop :=
  ∃ c ∈ ['\n', ',', ' ', ']'], rest.head? = some c

namespace Ends

variable {rest : List Char}

theorem cons {c : Char} (hc : c ∈ ['\n', ',', ' ', ']']) (cs : List Char) : Ends (c :: cs) :=
  ⟨c, hc, rfl⟩

/-- Whatever can be said of the few characters that end a value. -/
theorem forall_head {p : Char → Prop} (h : Ends rest)
    (hp : ∀ c ∈ ['\n', ',', ' ', ']'], p c) : ∀ c ∈ rest.head?, p c := by
  obtain ⟨c, hc, hhead⟩ := h
  intro d hd
  rw [hhead, Option.mem_some_iff] at hd
  exact hd ▸ hp c hc

theorem satisfy_eq_none {accept : Char → Bool} (h : Ends rest)
    (haccept : ∀ c ∈ ['\n', ',', ' ', ']'], accept c = false) : satisfy accept rest = none := by
  obtain ⟨c, hc, hhead⟩ := h
  obtain ⟨cs, rfl⟩ := List.head?_eq_some_iff.mp hhead
  simp [haccept c hc]

theorem char_eq_none {c : Char} (h : Ends rest) (hc : c ∉ ['\n', ',', ' ', ']']) :
    char c rest = none := by
  have hsatisfy : satisfy (· == c) rest = none :=
    h.satisfy_eq_none fun d hd => beq_eq_false_iff_ne.mpr (ne_of_mem_of_not_mem hd hc)
  simp only [char, bind_apply, hsatisfy, Option.bind_none]

end Ends

/-! ## Digits -/

theorem digits_append {accept : Char → Bool} {ds rest : List Char} (hne : ds ≠ [])
    (hds : ∀ c ∈ ds, accept c) (hrest : ∀ c ∈ rest.head?, accept c = false ∧ c ≠ '_') :
    digits accept (ds ++ rest) = some (ds, rest) := by
  have hstop : (satisfy accept <|> (char '_' *> satisfy accept) : Reader Char) rest = none := by
    cases rest with
    | nil => simp
    | cons c rest =>
      obtain ⟨haccept, hunderscore⟩ := hrest c rfl
      simp [haccept, hunderscore]
  have hrepeats : ∀ cs, (∀ c ∈ cs, accept c) →
      Repeats (satisfy accept <|> (char '_' *> satisfy accept)) (cs ++ rest) cs rest := by
    intro cs hcs
    have hitem : ∀ c ∈ cs, ∀ more, True →
        (satisfy accept <|> (char '_' *> satisfy accept) : Reader Char) ([c] ++ more) =
          some (id c, more) := by
      simp +contextual [hcs]
    simpa using
      repeats_flatMap (fun c => [c]) id (fun _ => True) hstop trivial (by simp) (by simp) hitem
  obtain ⟨d, ds, rfl⟩ := List.exists_cons_of_ne_nil hne
  obtain ⟨hd, hds⟩ := List.forall_mem_cons.mp hds
  simp only [digits, List.cons_append, bind_apply, satisfy_cons, hd, if_true, Option.bind_some,
    (hrepeats ds hds).many_eq, pure_apply]

theorem isDigit_of_mem_toDigits {n : Nat} : ∀ c ∈ Nat.toDigits 10 n, c.isDigit :=
  fun _ => Nat.isDigit_of_mem_toDigits (by decide) (by decide)

theorem hexValue?_of_isDigit {c : Char} (h : c.isDigit) :
    hexValue? c = some (c.toNat - '0'.toNat) := by
  have hbounds : '0' ≤ c ∧ c ≤ '9' := by simpa [Char.isDigit, Char.le_def] using h
  rw [hexValue?, if_pos hbounds]

theorem ofDigits_toDigits (n : Nat) : ofDigits 10 (Nat.toDigits 10 n) = n := by
  have hfold : ∀ cs : List Char, (∀ c ∈ cs, c.isDigit) → ∀ init,
      cs.foldl (fun n c => n * 10 + (hexValue? c).getD 0) init = Nat.ofDigitChars 10 cs init := by
    intro cs hcs
    induction cs with
    | nil => simp
    | cons c cs ih =>
      intro init
      obtain ⟨hc, hcs⟩ := List.forall_mem_cons.mp hcs
      rw [List.foldl_cons, hexValue?_of_isDigit hc, Nat.ofDigitChars_cons, ih hcs, Nat.mul_comm,
        Option.getD_some]
  rw [ofDigits, hfold _ isDigit_of_mem_toDigits, Nat.ofDigitChars_ten_toDigits]

theorem toDigits_eq_cons (n : Nat) :
    ∃ d ds, Nat.toDigits 10 n = d :: ds ∧ ∀ c, c.isDigit = false → d ≠ c := by
  obtain ⟨d, ds, hds⟩ := List.exists_cons_of_ne_nil (Nat.toDigits_ne_nil (b := 10) (n := n))
  have hd : d.isDigit := isDigit_of_mem_toDigits d (hds ▸ List.mem_cons_self)
  refine ⟨d, ds, hds, ?_⟩
  rintro c hc rfl
  exact absurd hd (by simp [hc])

/-- Only zero is written with a zero in front. -/
theorem head_toDigits {n : Nat} (h : (Nat.toDigits 10 n).head? = some '0') : n = 0 := by
  induction n using Nat.strongRecOn with
  | ind n ih =>
    rw [Nat.toDigits_eq_if (by decide)] at h
    split at h
    case isTrue hlt =>
      have hzero : ∀ n < 10, [Nat.digitChar n].head? = some '0' → n = 0 := by decide
      exact hzero n hlt h
    case isFalse hge =>
      have hne : Nat.toDigits 10 (n / 10) ≠ [] := Nat.toDigits_ne_nil
      rw [List.head?_append, List.head?_eq_some_head hne, Option.some_or,
        ← List.head?_eq_some_head hne] at h
      have hzero := ih (n / 10) (by omega) h
      omega

theorem wholeDigits_toDigits (n : Nat) {rest : List Char}
    (hrest : ∀ c ∈ rest.head?, c.isDigit = false ∧ c ≠ '_') :
    wholeDigits (Nat.toDigits 10 n ++ rest) = some (Nat.toDigits 10 n, rest) := by
  have hne : Nat.toDigits 10 n ≠ [] := Nat.toDigits_ne_nil
  have hhead : (Nat.toDigits 10 n ++ rest).head? = (Nat.toDigits 10 n).head? := by
    rw [List.head?_append, List.head?_eq_some_head hne, Option.some_or]
  simp only [wholeDigits, bind_apply, peek_apply, Option.bind_some, hhead]
  split
  case isTrue hzero =>
    rw [head_toDigits hzero]
    simp
  case isFalse => exact digits_append hne isDigit_of_mem_toDigits hrest

/-! ## What other kinds do on a number -/

theorem fixedNumber_of_not_digit {c : Char} (hc : c.isDigit = false) (cs : List Char)
    (count least most : Nat) : fixedNumber (count + 1) least most (c :: cs) = none := by
  have hdigits : exactly (satisfy Char.isDigit) (count + 1) (c :: cs) = none := by
    simp [exactly, hc]
  simp only [fixedNumber, bind_apply, hdigits, Option.bind_none]

theorem datetime_of_not_digit {c : Char} (hc : c.isDigit = false) (cs : List Char) :
    datetime (c :: cs) = none := by
  have hdate : date (c :: cs) = none := by
    rw [date, bind_apply, fixedNumber_of_not_digit hc, Option.bind_none]
  have htime : time (c :: cs) = none := by
    rw [time, bind_apply, fixedNumber_of_not_digit hc, Option.bind_none]
  simp [datetime, taken, hdate, htime]

theorem string_of_not_quote {c : Char} (hc : c ≠ '"' ∧ c ≠ '\'') (cs : List Char) :
    string (c :: cs) = none := by
  simp [string, multilineBasicString, basicString, multilineLiteralString, literalString, hc.1, hc.2,
    List.isPrefixOf, hc.1.symm, hc.2.symm]

theorem exactly_digits {ds rest cs : List Char} {x : List Char} (hrest : Ends rest) {count : Nat}
    (hds : ∀ c ∈ ds, c.isDigit)
    (h : exactly (satisfy Char.isDigit) count (ds ++ rest) = some (x, cs)) :
    ∃ ds', (∀ c ∈ ds', c.isDigit) ∧ cs = ds' ++ rest := by
  induction count generalizing ds x with
  | zero =>
    rw [exactly, pure_apply, Option.some.injEq, Prod.mk.injEq] at h
    exact ⟨ds, hds, h.2.symm⟩
  | succ count ih =>
    cases ds with
    | nil =>
      have hnone : satisfy Char.isDigit rest = none := hrest.satisfy_eq_none (by decide)
      rw [exactly, bind_apply, List.nil_append, hnone] at h
      cases h
    | cons d ds =>
      obtain ⟨hd, hds⟩ := List.forall_mem_cons.mp hds
      rw [exactly, bind_apply, List.cons_append, satisfy_cons, if_pos hd, Option.bind_some,
        bind_apply, Option.bind_eq_some_iff] at h
      obtain ⟨⟨y, mid⟩, hmid, h⟩ := h
      rw [pure_apply, Option.some.injEq, Prod.mk.injEq] at h
      obtain ⟨-, rfl⟩ := h
      exact ih hds hmid

/-- Digits alone are no date and no time: these go on with a mark. -/
theorem datetime_digits {ds rest : List Char} (hds : ∀ c ∈ ds, c.isDigit) (hrest : Ends rest) :
    datetime (ds ++ rest) = none := by
  have hmark : ∀ {count least most mark}, mark ∉ ['\n', ',', ' ', ']'] → mark.isDigit = false →
      ∀ r, fixedNumber count least most (ds ++ rest) = some r → char mark r.2 = none := by
    intro count least most mark hends hdigit r h
    rw [fixedNumber, bind_apply, Option.bind_eq_some_iff] at h
    obtain ⟨⟨x, cs⟩, hx, h⟩ := h
    obtain ⟨ds', hds', rfl⟩ := exactly_digits hrest hds hx
    rw [bind_apply, guard_apply, Option.bind_eq_some_iff] at h
    obtain ⟨⟨_, cs⟩, hguard, h⟩ := h
    rw [Option.ite_none_right_eq_some, Option.some.injEq, Prod.mk.injEq] at hguard
    rw [pure_apply, Option.some.injEq] at h
    rw [← h, ← hguard.2.2]
    cases ds' with
    | nil => exact hrest.char_eq_none hends
    | cons d ds' =>
      have hd : d ≠ mark := by
        rintro rfl
        exact absurd (hds' d List.mem_cons_self) (by simp [hdigit])
      simp [hd]
  have hdate : date (ds ++ rest) = none := by
    rw [date, bind_apply, Option.bind_eq_none_iff]
    intro r hr
    rw [bind_apply, hmark (by decide) (by decide) r hr, Option.bind_none]
  have htime : time (ds ++ rest) = none := by
    rw [time, bind_apply, Option.bind_eq_none_iff]
    intro r hr
    rw [bind_apply, hmark (by decide) (by decide) r hr, Option.bind_none]
  simp [datetime, taken, hdate, htime]

/-! ## Numbers -/

/-- A number as it is written: a mark in front of the digits of its magnitude. -/
theorem toList_toString_int (i : Int) :
    ∃ mark, (mark = [] ∧ 0 ≤ i ∨ mark = ['-'] ∧ i < 0) ∧
      (toString i).toList = mark ++ Nat.toDigits 10 i.natAbs := by
  cases i with
  | ofNat n =>
    refine ⟨[], .inl ⟨rfl, Int.natCast_nonneg n⟩, ?_⟩
    exact Nat.toList_repr
  | negSucc n =>
    refine ⟨['-'], .inr ⟨rfl, Int.negSucc_lt_zero n⟩, ?_⟩
    change ("-" ++ (n + 1).repr).toList = _
    rw [String.toList_append, Nat.toList_repr]
    rfl

section Number

variable {mark rest : List Char} {n : Nat} (hmark : mark = [] ∨ mark = ['-']) (hrest : Ends rest)
include hmark

theorem sign_number : sign (mark ++ (Nat.toDigits 10 n ++ rest)) =
    some (mark, Nat.toDigits 10 n ++ rest) := by
  rcases hmark with rfl | rfl
  · obtain ⟨d, ds, hds, hd⟩ := toDigits_eq_cons n
    simp [sign, hds, hd '+', hd '-']
  · simp [sign]

theorem specialFloat_number : specialFloat (mark ++ (Nat.toDigits 10 n ++ rest)) = none := by
  obtain ⟨d, ds, hds, hd⟩ := toDigits_eq_cons n
  rw [specialFloat, bind_apply, sign_number hmark, hds]
  simp [(hd 'i' (by decide)).symm, (hd 'n' (by decide)).symm]

include hrest

theorem float_number : float (mark ++ (Nat.toDigits 10 n ++ rest)) = none := by
  have hwhole := wholeDigits_toDigits n (hrest.forall_head (by decide))
  have hfraction : fraction rest = none := by
    rw [fraction, bind_apply, hrest.char_eq_none (by decide), Option.bind_none]
  have hexponent : exponent rest = none := by
    rw [exponent, bind_apply, hrest.satisfy_eq_none (by decide), Option.bind_none]
  have hdecimal : decimalFloat (mark ++ (Nat.toDigits 10 n ++ rest)) = none := by
    simp only [decimalFloat, bind_apply, sign_number hmark, hwhole, Option.bind_some,
      optional_of_none hfraction, optional_of_none hexponent]
    simp
  simp [float, taken, hdecimal, specialFloat_number hmark]

theorem basedInteger_number : basedInteger (mark ++ (Nat.toDigits 10 n ++ rest)) = none := by
  obtain ⟨c, hc, hhead⟩ := hrest
  obtain ⟨cs, rfl⟩ := List.head?_eq_some_iff.mp hhead
  have hbases : c ≠ 'x' ∧ c ≠ 'o' ∧ c ≠ 'b' := by
    clear hhead
    revert c
    decide
  rcases hmark with rfl | rfl
  · by_cases hzero : n = 0
    · simp [basedInteger, hzero, hbases.1.symm, hbases.2.1.symm, hbases.2.2.symm, List.isPrefixOf]
    · obtain ⟨d, ds, hds, -⟩ := toDigits_eq_cons n
      have hd : '0' ≠ d := by
        rintro rfl
        exact hzero (head_toDigits (by rw [hds, List.head?_cons]))
      simp [basedInteger, hds, hd, List.isPrefixOf]
  · simp [basedInteger, List.isPrefixOf]

end Number

theorem datetime_number {mark rest : List Char} {n : Nat} (hmark : mark = [] ∨ mark = ['-'])
    (hrest : Ends rest) : datetime (mark ++ (Nat.toDigits 10 n ++ rest)) = none := by
  rcases hmark with rfl | rfl
  · rw [List.nil_append]
    exact datetime_digits isDigit_of_mem_toDigits hrest
  · exact datetime_of_not_digit (by decide) _

theorem integer_toString {i : Int} (hi : -maxInteger - 1 ≤ i ∧ i ≤ maxInteger) {rest : List Char}
    (hrest : Ends rest) : integer ((toString i).toList ++ rest) = some (i, rest) := by
  obtain ⟨mark, hmark, htext⟩ := toList_toString_int i
  have hform : mark = [] ∨ mark = ['-'] := hmark.imp And.left And.left
  have hwhole := wholeDigits_toDigits i.natAbs (hrest.forall_head (by decide))
  have hvalue : (if mark = ['-'] then -(i.natAbs : Int) else (i.natAbs : Int)) = i := by
    rcases hmark with ⟨rfl, hsign⟩ | ⟨rfl, hsign⟩
    · exact Int.natAbs_of_nonneg hsign
    · simp [Int.ofNat_natAbs_of_nonpos (Int.le_of_lt hsign)]
  rw [htext, List.append_assoc, integer, orElse_apply, basedInteger_number hform hrest,
    Option.none_or]
  simp only [decimalInteger, bind_apply, sign_number hform, hwhole, Option.bind_some,
    ofDigits_toDigits, hvalue, guard_apply, if_pos hi, pure_apply]

/-! ## Scalars -/

theorem scalarValue_string (text : String) {rest : List Char} (hrest : Ends rest) :
    scalarValue ((quote text).toList ++ rest) = some (.string text, rest) := by
  have hread := string_quote text (hrest.forall_head (by decide))
  simp only [scalarValue, orElse_apply, map_apply, hread, Option.map_some, Option.some_or]

theorem scalarValue_integer {i : Int} (hi : -maxInteger - 1 ≤ i ∧ i ≤ maxInteger)
    {rest : List Char} (hrest : Ends rest) :
    scalarValue ((toString i).toList ++ rest) = some (.integer i, rest) := by
  obtain ⟨mark, hmark, htext⟩ := toList_toString_int i
  have hform : mark = [] ∨ mark = ['-'] := hmark.imp And.left And.left
  have hstring : string ((toString i).toList ++ rest) = none := by
    rw [htext]
    rcases hform with rfl | rfl
    · obtain ⟨d, ds, hds, hd⟩ := toDigits_eq_cons i.natAbs
      rw [hds]
      exact string_of_not_quote ⟨hd _ (by decide), hd _ (by decide)⟩ _
    · exact string_of_not_quote (by decide) _
  have hdatetime : datetime ((toString i).toList ++ rest) = none := by
    rw [htext, List.append_assoc, datetime_number hform hrest]
  have hfloat : float ((toString i).toList ++ rest) = none := by
    rw [htext, List.append_assoc, float_number hform hrest]
  simp only [scalarValue, orElse_apply, map_apply, hstring, hdatetime, hfloat,
    integer_toString hi hrest, Option.map_none, Option.map_some, Option.none_or, Option.some_or]

/-- What starts with none of their marks is no string, no date and no number. -/
theorem kinds_eq_none {c : Char} (hdigit : c.isDigit = false)
    (hc : c ∉ ['"', '\'', '+', '-', 'i', 'n']) (cs : List Char) :
    string (c :: cs) = none ∧ datetime (c :: cs) = none ∧ float (c :: cs) = none ∧
      integer (c :: cs) = none := by
  have hzero : '0' ≠ c := by
    rintro rfl
    exact absurd hdigit (by decide)
  simp only [List.mem_cons, List.not_mem_nil, or_false, not_or] at hc
  obtain ⟨hdouble, hsingle, hplus, hminus, hi, hn⟩ := hc
  have hwhole : wholeDigits (c :: cs) = none := by
    simp [wholeDigits, digits, hdigit, hzero.symm]
  refine ⟨string_of_not_quote ⟨hdouble, hsingle⟩ cs, datetime_of_not_digit hdigit cs, ?_, ?_⟩
  · simp [float, taken, decimalFloat, specialFloat, sign, hplus, hminus, hwhole, Ne.symm hi,
      Ne.symm hn]
  · simp [integer, basedInteger, decimalInteger, sign, hplus, hminus, hwhole, hzero]

/-- Brackets and braces start and end no scalar. -/
theorem scalarValue_eq_none {c : Char} (hc : c ∈ ['[', ']', '\x7b', '\x7d']) (cs : List Char) :
    scalarValue (c :: cs) = none := by
  have hhead : c.isDigit = false ∧ c ∉ ['"', '\'', '+', '-', 'i', 'n'] ∧ c ≠ 't' ∧ c ≠ 'f' := by
    revert c
    decide
  obtain ⟨hdigit, hmarks, ht, hf⟩ := hhead
  obtain ⟨hstring, hdatetime, hfloat, hinteger⟩ := kinds_eq_none hdigit hmarks cs
  simp [scalarValue, hstring, hdatetime, hfloat, hinteger, ht.symm, hf.symm]

theorem scalarValue_boolean (b : Bool) (rest : List Char) :
    scalarValue ((if b then "true" else "false").toList ++ rest) = some (.boolean b, rest) := by
  cases b with
  | false =>
    obtain ⟨hstring, hdatetime, hfloat, hinteger⟩ :=
      kinds_eq_none (c := 'f') (by decide) (by decide) ('a' :: 'l' :: 's' :: 'e' :: rest)
    simp [scalarValue, hstring, hdatetime, hfloat, hinteger]
  | true =>
    obtain ⟨hstring, hdatetime, hfloat, hinteger⟩ :=
      kinds_eq_none (c := 't') (by decide) (by decide) ('r' :: 'u' :: 'e' :: rest)
    simp [scalarValue, hstring, hdatetime, hfloat, hinteger]

end DispatchGen.Toml
