import DispatchGen.Proofs.Toml.Reader
import DispatchGen.Toml.Quoted

/-!
# Strings are read as they were written

`string_quote`: whatever text a string is written for, and whichever of the four kinds `quote` chooses,
`string` reads the text back. On one line every character is read from its own code
(`escapeChar_cases`). On several lines quotes are read in groups, so the invariant (`Written`) carries
the quotes that stand right in front of the rest.
-/

namespace DispatchGen.Toml

open Reader

/-! ## Pieces of a string -/

/-- The pieces that a reader takes, again and again, make up a text. -/
def Gathers (item : Reader (List Char)) (cs text rest : List Char) : Prop :=
  ∃ pieces, Repeats item cs pieces rest ∧ pieces.flatten = text

namespace Gathers

variable {item : Reader (List Char)} {cs mid piece text rest : List Char}

theorem stop (fails : item cs = none) : Gathers item cs [] cs :=
  ⟨[], .stop fails, rfl⟩

theorem take (takes : item cs = some (piece, mid)) (shorter : mid.length < cs.length)
    (more : Gathers item mid text rest) : Gathers item cs (piece ++ text) rest := by
  obtain ⟨pieces, h, rfl⟩ := more
  exact ⟨_, .item takes shorter h, rfl⟩

/-- A character in front of a run is taken together with the run. -/
theorem cons_run {accept : Char → Bool} {c : Char} (hc : accept c)
    (hitem : ∀ c cs, accept c → item (c :: cs) = run1 accept (c :: cs))
    (more : Gathers item cs text rest) : Gathers item (c :: cs) (c :: text) rest := by
  have hrun : ∀ c cs, accept c →
      item (c :: cs) = some (c :: cs.takeWhile accept, cs.dropWhile accept) := by
    intro c cs hc
    simp [hitem c cs hc, run1, hc]
  have hshort : ∀ c, (cs.dropWhile accept).length < (c :: cs).length :=
    fun _ => Nat.lt_succ_of_le (List.dropWhile_suffix _).length_le
  cases cs with
  | nil => exact take (hrun c [] hc) (hshort c) more
  | cons d ds =>
    by_cases hd : accept d
    · obtain ⟨pieces, h, rfl⟩ := more
      cases h with
      | stop fails => simp [hrun d ds hd] at fails
      | @item _ _ _ _ pieces takes shorter more =>
        rw [hrun d ds hd, Option.some.injEq, Prod.mk.injEq] at takes
        obtain ⟨rfl, rfl⟩ := takes
        rw [← List.dropWhile_cons_of_pos hd] at more
        refine ⟨_ :: pieces, .item (hrun c _ hc) (hshort c) more, ?_⟩
        simp [hd]
    · have htakes := hrun c (d :: ds) hc
      rw [List.takeWhile_cons_of_neg hd, List.dropWhile_cons_of_neg hd] at htakes
      exact take htakes (Nat.lt_succ_self _) more

end Gathers

/-! ## Escapes -/

@[simp] theorem isBasicChar_quote : isBasicChar '"' = false := by
  decide

@[simp] theorem isBasicChar_newline : isBasicChar '\n' = false := by
  decide

@[simp] theorem isBasicChar_backslash : isBasicChar '\\' = false := by
  decide

theorem hexValue?_upperHexDigit : ∀ n < 16, hexValue? (upperHexDigit n) = some n := by
  decide

/-- A numeric escape is read as the character that was written. -/
theorem scalar_four {c : Char} (hc : c.toNat < 256) (rest : List Char) :
    scalar 4 ('0' :: '0' :: upperHexDigit (c.toNat / 16) :: upperHexDigit c.toNat :: rest) =
      some (c, rest) := by
  have hhigh := hexValue?_upperHexDigit (c.toNat / 16) (by omega)
  have hlow : hexValue? (upperHexDigit c.toNat) = some (c.toNat % 16) := by
    have hdigit : upperHexDigit c.toNat = upperHexDigit (c.toNat % 16) := by
      simp [upperHexDigit]
    rw [hdigit]
    exact hexValue?_upperHexDigit _ (Nat.mod_lt _ (by decide))
  have hzero : hexValue? '0' = some 0 := by decide
  have hsum : c.toNat / 16 * 16 + c.toNat % 16 = c.toNat := Nat.div_add_mod' ..
  have hvalid : c.toNat.isValidChar := Or.inl (by omega)
  simp [scalar, exactly, isHexDigit, ofDigits, hhigh, hlow, hzero, hsum, hvalid]

/-- Only line breaks and control characters cannot be shown as they are. -/
theorem isPrintable_of_isControl {c : Char} (hcontrol : isControl c = false) (hn : c ≠ '\n') :
    isPrintable c := by
  by_cases ht : c = '\t'
  · rw [ht]
    decide
  · simp [isControl, ht, hn] at hcontrol
    simp [isPrintable, isBeyondAscii, ht]
    omega

/-- A character stands for itself, or behind a backslash that no line can join on. -/
theorem escapeChar_cases (c : Char) :
    (isBasicChar c ∧ c ≠ '\n' ∧ escapeChar c = [c]) ∨
      ∃ mark code, escapeChar c = '\\' :: mark :: code ∧
        isBlank mark = false ∧ mark ≠ '\n' ∧ mark ≠ '\r' ∧
        ∀ rest, escape ('\\' :: mark :: (code ++ rest)) = some (c, rest) := by
  unfold escapeChar
  split
  case h_8 _ hb ht hn hf hr hq hs =>
    split
    case isTrue hcontrol =>
      right
      refine ⟨_, _, rfl, by decide, by decide, by decide, fun rest => ?_⟩
      have hc : c.toNat < 256 := by
        simp only [isControl, Bool.or_eq_true, Bool.and_eq_true, decide_eq_true_eq,
          beq_iff_eq] at hcontrol
        omega
      simpa [escape] using scalar_four hc rest
    case isFalse hcontrol =>
      left
      refine ⟨?_, hn, rfl⟩
      have hprintable := isPrintable_of_isControl (Bool.not_eq_true _ ▸ hcontrol) hn
      have hq' : c ≠ '"' := hq
      have hs' : c ≠ '\\' := hs
      simp [isBasicChar, hprintable, hq', hs']
  all_goals
    right
    exact ⟨_, [], rfl, by decide, by decide, by decide, fun rest => by simp [escape]⟩

/-- The code of a character starts with no quote and with no line break. -/
theorem escapeChar_eq_cons (c : Char) :
    ∃ d e, escapeChar c = d :: e ∧ isPrintable d ∧ d ≠ '"' := by
  obtain ⟨hc, -, hcode⟩ | ⟨mark, code, hcode, -⟩ := escapeChar_cases c
  · rw [isBasicChar, Bool.and_eq_true, Bool.and_eq_true, bne_iff_ne] at hc
    exact ⟨c, [], hcode, hc.1.1, hc.1.2⟩
  · exact ⟨'\\', mark :: code, hcode, by decide, by decide⟩

theorem newline_printable {c : Char} (hc : isPrintable c) (cs : List Char) :
    newline (c :: cs) = none := by
  have hn : c ≠ '\n' := by
    rintro rfl
    revert hc
    decide
  have hr : '\r' ≠ c := by
    rintro rfl
    revert hc
    decide
  simp [newline, hn, hr]

/-- A reader of pieces takes basic characters in runs, and escapes one by one. -/
structure ReadsBasic (item : Reader (List Char)) : Prop where
  runs : ∀ c cs, isBasicChar c → item (c :: cs) = run1 isBasicChar (c :: cs)
  escapes : ∀ mark cs c rest, isBlank mark = false → mark ≠ '\n' → mark ≠ '\r' →
    escape ('\\' :: mark :: cs) = some (c, rest) → item ('\\' :: mark :: cs) = some ([c], rest)

/-- Each character is read from its own code. -/
theorem ReadsBasic.gathers_escapeChar {item : Reader (List Char)} (h : ReadsBasic item) (c : Char)
    {cs text rest : List Char} (more : Gathers item cs text rest) :
    Gathers item (escapeChar c ++ cs) (c :: text) rest := by
  obtain ⟨hc, -, hcode⟩ | ⟨mark, code, hcode, hblank, hn, hr, hescape⟩ := escapeChar_cases c
  · rw [hcode]
    exact more.cons_run hc h.runs
  · rw [hcode]
    exact .take (h.escapes mark _ c cs hblank hn hr (hescape cs)) (by simp; omega) more

/-! ## Strings on one line -/

theorem readsBasic_basicString : ReadsBasic (run1 isBasicChar <|> do return [← escape]) where
  runs c cs hc := by simp [run1, hc]
  escapes mark cs c rest _ _ _ h := by
    simp [run1, h]

theorem basicString_escaped (cs rest : List Char) :
    basicString ('"' :: (cs.flatMap escapeChar ++ '"' :: rest)) = some (String.ofList cs, rest) := by
  have hgathers : Gathers (run1 isBasicChar <|> do return [← escape])
      (cs.flatMap escapeChar ++ '"' :: rest) cs ('"' :: rest) := by
    induction cs with
    | nil =>
        exact .stop (by simp [run1, escape])
    | cons c cs ih =>
      rw [List.flatMap_cons, List.append_assoc]
      exact readsBasic_basicString.gathers_escapeChar c ih
  obtain ⟨pieces, h, rfl⟩ := hgathers
  simp only [basicString, bind_apply, char_cons, if_true, Option.bind_some, h.many_eq, pure_apply]

theorem literalString_plain {cs : List Char} (h : ∀ c ∈ cs, isLiteralChar c) (rest : List Char) :
    literalString ('\'' :: (cs ++ '\'' :: rest)) = some (String.ofList cs, rest) := by
  have hquote : ∀ c ∈ ('\'' :: rest).head?, isLiteralChar c = false := by
    simp [isLiteralChar]
  have hrun := run_append h hquote
  simp only [literalString, bind_apply, char_cons, if_true, Option.bind_some, hrun, pure_apply]

/-! ## Strings on several lines -/

section Multiline

variable {q : Char} {piece : Reader (List Char)} {rest : List Char}

/-- Quotes in a row end where another character follows. -/
theorem span_quotes (k : Nat) {cs : List Char} (hcs : ∀ c ∈ cs.head?, c ≠ q) :
    (List.replicate k q ++ cs).span (· == q) = (List.replicate k q, cs) := by
  have hrun : run (· == q) (List.replicate k q ++ cs) = some (List.replicate k q, cs) :=
    run_append (fun c hc => by simp [List.eq_of_mem_replicate hc]) (fun c hc => by simp [hcs c hc])
  exact Option.some.inj hrun

theorem innerQuotes_append {k : Nat} (hk : k = 1 ∨ k = 2) {cs : List Char}
    (hcs : ∀ c ∈ cs.head?, c ≠ q) :
    innerQuotes q (List.replicate k q ++ cs) = some (List.replicate k q, cs) := by
  simp only [innerQuotes, span_quotes k hcs, List.length_replicate, hk, if_true]

theorem innerQuotes_closing (k : Nat) (hrest : ∀ c ∈ rest.head?, c ≠ q) :
    innerQuotes q (List.replicate (k + 3) q ++ rest) = none := by
  have hk : ¬(k + 3 = 1 ∨ k + 3 = 2) := by omega
  simp only [innerQuotes, span_quotes (k + 3) hrest, List.length_replicate, hk, if_false]

theorem closingQuotes_append {k : Nat} (hk : k ≤ 2) (hrest : ∀ c ∈ rest.head?, c ≠ q) :
    closingQuotes q (List.replicate (k + 3) q ++ rest) = some (List.replicate k q, rest) := by
  have hspan := span_quotes (k + 3) hrest
  rw [List.span_eq_takeWhile_dropWhile, Prod.mk.injEq] at hspan
  have hmin : min k 2 = k := Nat.min_eq_left hk
  simp [closingQuotes, hspan.1, hmin]

/-- Behind `k` quotes in a row, and in front of the three that end the string, `code` is read as
`text`, save that up to two quotes at the very end are left for `closingQuotes`. -/
def Written (q : Char) (piece : Reader (List Char)) (rest : List Char) (k : Nat)
    (code text : List Char) : Prop :=
  ∃ body j, j ≤ 2 ∧ List.replicate k q ++ text = body ++ List.replicate j q ∧
    Gathers (piece <|> innerQuotes q)
      (List.replicate k q ++ (code ++ (List.replicate 3 q ++ rest))) body
      (List.replicate (j + 3) q ++ rest)

namespace Written

theorem nil (hpiece : ∀ cs, piece (q :: cs) = none) (hrest : ∀ c ∈ rest.head?, c ≠ q) {k : Nat}
    (hk : k ≤ 2) : Written q piece rest k [] [] := by
  refine ⟨[], k, hk, by simp, ?_⟩
  rw [List.nil_append, ← List.append_assoc, List.replicate_append_replicate]
  refine .stop ?_
  rw [orElse_apply, innerQuotes_closing k hrest, List.replicate_succ, List.cons_append, hpiece]
  rfl

/-- One more quote in a row. -/
theorem quote {k : Nat} {code text : List Char} (h : Written q piece rest (k + 1) code text) :
    Written q piece rest k (q :: code) (q :: text) := by
  obtain ⟨body, j, hj, htext, hgathers⟩ := h
  rw [List.replicate_succ', List.append_assoc] at htext hgathers
  exact ⟨body, j, hj, htext, hgathers⟩

/-- A character that ends the quotes in a row. -/
theorem char (hpiece : ∀ cs, piece (q :: cs) = none) {c d : Char} {e : List Char} (hd : d ≠ q)
    (hcode : ∀ {cs text rest}, Gathers (piece <|> innerQuotes q) cs text rest →
      Gathers (piece <|> innerQuotes q) (d :: e ++ cs) (c :: text) rest)
    {k : Nat} (hk : k ≤ 2) {code text : List Char} (h : Written q piece rest 0 code text) :
    Written q piece rest k (d :: e ++ code) (c :: text) := by
  obtain ⟨body, j, hj, rfl, hgathers⟩ := h
  refine ⟨List.replicate k q ++ c :: body, j, hj, by simp, ?_⟩
  have hnext := hcode hgathers
  rw [List.replicate_zero, List.nil_append, ← List.append_assoc] at hnext
  rcases Nat.eq_zero_or_pos k with rfl | hpos
  · exact hnext
  · obtain ⟨k, rfl⟩ := Nat.exists_eq_succ_of_ne_zero (Nat.ne_of_gt hpos)
    refine .take ?_ ?_ hnext
    · have hhead : ∀ c ∈ (d :: e ++ code ++ (List.replicate 3 q ++ rest)).head?, c ≠ q := by
        simpa using hd
      have hquotes := innerQuotes_append (k := k + 1) (by omega) hhead
      rw [orElse_apply, hquotes, List.replicate_succ, List.cons_append, hpiece]
      rfl
    · simp

/-- The whole body of a string. -/
theorem multilineBody_eq {code text : List Char} (hrest : ∀ c ∈ rest.head?, c ≠ q)
    (h : Written q piece rest 0 code text) (startsLine : Bool)
    (hline : startsLine = false → newline (code ++ (List.replicate 3 q ++ rest)) = none) :
    multilineBody q piece
        ((if startsLine then ['\n'] else []) ++ (code ++ (List.replicate 3 q ++ rest))) =
      some (String.ofList text, rest) := by
  obtain ⟨body, j, hj, htext, pieces, hmany, rfl⟩ := h
  rw [List.replicate_zero, List.nil_append] at hmany htext
  have hbody : ∀ cs found, optional newline cs = some (found, code ++ (List.replicate 3 q ++ rest)) →
      multilineBody q piece cs = some (String.ofList text, rest) := by
    intro cs found hfound
    simp only [multilineBody, bind_apply, hfound, Option.bind_some, hmany.many_eq,
      closingQuotes_append hj hrest, pure_apply, htext]
  cases startsLine with
  | true => exact hbody _ (some ()) (optional_of_some (by simp [newline]))
  | false => exact hbody _ none (optional_of_none (hline rfl))

end Written

end Multiline

/-! ### The basic kind -/

theorem readsBasic_basicPiece : ReadsBasic (basicPiece <|> innerQuotes '"') where
  runs c cs hc := by simp [basicPiece, run1, hc]
  escapes mark cs c rest hblank hn hr h := by
    have hjoin : lineJoin ('\\' :: mark :: cs) = none := by
      simp [lineJoin, blanks, hblank, newline, hn, hr.symm]
    simp [basicPiece, run1, hjoin, h]

theorem basicPiece_quote (cs : List Char) : basicPiece ('"' :: cs) = none := by
  simp [basicPiece, run1, lineJoin, escape, innerNewline, newline]

/-- A line break stands for itself. -/
theorem gathers_innerNewline {cs text rest : List Char}
    (more : Gathers (basicPiece <|> innerQuotes '"') cs text rest) :
    Gathers (basicPiece <|> innerQuotes '"') ('\n' :: cs) ('\n' :: text) rest := by
  have htakes : (basicPiece <|> innerQuotes '"') ('\n' :: cs) = some (['\n'], cs) := by
    simp [basicPiece, run1, lineJoin, escape, innerNewline, newline]
  exact .take htakes (Nat.lt_succ_self _) more

theorem written_escapeLines {rest : List Char} (hrest : ∀ c ∈ rest.head?, c ≠ '"') {k : Nat}
    (hk : k ≤ 2) (cs : List Char) : Written '"' basicPiece rest k (escapeLines k cs) cs := by
  fun_induction escapeLines k cs with
  | case1 k => exact .nil basicPiece_quote hrest hk
  | case2 k cs ih =>
    exact .char basicPiece_quote (e := []) (by decide) gathers_innerNewline hk (ih (by decide))
  | case3 k cs hlt ih => exact (ih hlt).quote
  | case4 k cs hlt ih =>
    exact .char basicPiece_quote (e := ['"']) (by decide)
      (readsBasic_basicPiece.gathers_escapeChar '"') hk (ih (by decide))
  | case5 k c cs hn hq ih =>
    obtain ⟨d, e, hcode, -, hd⟩ := escapeChar_eq_cons c
    have hgathers : ∀ {cs text rest}, Gathers (basicPiece <|> innerQuotes '"') cs text rest →
        Gathers (basicPiece <|> innerQuotes '"') (escapeChar c ++ cs) (c :: text) rest :=
      readsBasic_basicPiece.gathers_escapeChar c
    rw [hcode] at hgathers ⊢
    exact .char basicPiece_quote hd hgathers hk (ih (by decide))

theorem newline_escapeLines {cs : List Char} (h : '\n' ∉ cs) (rest : List Char) :
    newline (escapeLines 0 cs ++ '"' :: rest) = none := by
  match cs with
  | [] => simp [escapeLines, newline]
  | c :: cs =>
    have hn := List.ne_of_not_mem_cons h
    by_cases hq : c = '"'
    · simp [hq, escapeLines, newline]
    · obtain ⟨d, e, hcode, hd, -⟩ := escapeChar_eq_cons c
      rw [escapeLines.eq_4 _ _ _ (Ne.symm hn) hq, hcode]
      exact newline_printable hd _

theorem toList_enclose (delimiter : String) (body : List Char) (startsLine : Bool) :
    (enclose delimiter body startsLine).toList =
      delimiter.toList ++ ((if startsLine then ['\n'] else []) ++ (body ++ delimiter.toList)) := by
  cases startsLine <;> simp [enclose]

theorem multilineBasicString_escaped (cs : List Char) {rest : List Char}
    (hrest : ∀ c ∈ rest.head?, c ≠ '"') :
    multilineBasicString
        ((enclose "\"\"\"" (escapeLines 0 cs) (cs.contains '\n')).toList ++ rest) =
      some (String.ofList cs, rest) := by
  have hwritten := written_escapeLines hrest (Nat.zero_le _) cs
  have hbody := hwritten.multilineBody_eq hrest (cs.contains '\n') fun h =>
    newline_escapeLines (by simpa using h) _
  have htext : (enclose "\"\"\"" (escapeLines 0 cs) (cs.contains '\n')).toList ++ rest =
      "\"\"\"".toList ++ ((if cs.contains '\n' then ['\n'] else []) ++
        (escapeLines 0 cs ++ (List.replicate 3 '"' ++ rest))) := by
    simp [toList_enclose]
  rw [htext, multilineBasicString, bind_apply, word_apply, if_pos (by simp)]
  simpa using hbody

/-! ### The literal kind -/

/-- One step in counting the longest run of a character. -/
def countRun (q : Char) (counts : Nat × Nat) (c : Char) : Nat × Nat :=
  if c = q then (counts.1 + 1, max counts.2 (counts.1 + 1)) else (0, counts.2)

theorem longestRun_eq (q : Char) (cs : List Char) :
    longestRun q cs = (cs.foldl (countRun q) (0, 0)).2 :=
  rfl

theorem le_longest (q : Char) (cs : List Char) (counts : Nat × Nat) :
    counts.2 ≤ (cs.foldl (countRun q) counts).2 := by
  induction cs generalizing counts with
  | nil => exact Nat.le_refl _
  | cons c cs ih =>
    refine Nat.le_trans ?_ (ih _)
    rw [countRun]
    split
    · exact Nat.le_max_left ..
    · exact Nat.le_refl _

/-- A quote makes a run of one more. -/
theorem lt_longest (q : Char) (cs : List Char) (counts : Nat × Nat) :
    counts.1 < (cs.foldl (countRun q) (countRun q counts q)).2 := by
  refine Nat.lt_of_lt_of_le ?_ (le_longest q cs _)
  rw [countRun, if_pos rfl]
  exact Nat.lt_of_lt_of_le (Nat.lt_succ_self _) (Nat.le_max_right ..)

theorem notMem_of_longestRun {q : Char} {cs : List Char} (h : longestRun q cs = 0) : q ∉ cs := by
  intro hmem
  obtain ⟨front, behind, rfl⟩ := List.append_of_mem hmem
  rw [longestRun_eq, List.foldl_append, List.foldl_cons] at h
  exact Nat.not_lt_zero _ (h ▸ lt_longest q behind _)

theorem isLiteralChar_of_isControl {c : Char} (hcontrol : isControl c = false) (hn : c ≠ '\n')
    (hq : c ≠ '\'') : isLiteralChar c := by
  simp [isLiteralChar, isPrintable_of_isControl hcontrol hn, hq]

@[simp] theorem isLiteralChar_quote : isLiteralChar '\'' = false := by
  decide

@[simp] theorem isLiteralChar_newline : isLiteralChar '\n' = false := by
  decide

theorem literalPiece_quote (cs : List Char) : literalPiece ('\'' :: cs) = none := by
  simp [literalPiece, run1, innerNewline, newline]

/-- Every character but the quote stands for itself. -/
theorem gathers_literal {c : Char} (hcontrol : isControl c = false) (hq : c ≠ '\'')
    {cs text rest : List Char} (more : Gathers (literalPiece <|> innerQuotes '\'') cs text rest) :
    Gathers (literalPiece <|> innerQuotes '\'') (c :: cs) (c :: text) rest := by
  by_cases hn : c = '\n'
  · subst hn
    have htakes : (literalPiece <|> innerQuotes '\'') ('\n' :: cs) = some (['\n'], cs) := by
      simp [literalPiece, run1, innerNewline, newline]
    exact .take htakes (Nat.lt_succ_self _) more
  · refine more.cons_run (isLiteralChar_of_isControl hcontrol hn hq) fun c cs hc => ?_
    simp [literalPiece, run1, hc]

theorem written_literal {rest : List Char} (hrest : ∀ c ∈ rest.head?, c ≠ '\'') {cs : List Char}
    (hcontrol : ∀ c ∈ cs, isControl c = false) (counts : Nat × Nat) (hk : counts.1 ≤ 2)
    (hrun : (cs.foldl (countRun '\'') counts).2 ≤ 2) :
    Written '\'' literalPiece rest counts.1 cs cs := by
  induction cs generalizing counts with
  | nil => exact .nil literalPiece_quote hrest hk
  | cons c cs ih =>
    obtain ⟨hc, hcs⟩ := List.forall_mem_cons.mp hcontrol
    rw [List.foldl_cons] at hrun
    by_cases hq : c = '\''
    · subst hq
      have hlt := Nat.lt_of_lt_of_le (lt_longest '\'' cs counts) hrun
      rw [countRun, if_pos rfl] at hrun
      exact (ih hcs (counts.1 + 1, _) hlt hrun).quote
    · rw [countRun, if_neg hq] at hrun
      exact .char literalPiece_quote (e := []) hq (gathers_literal hc hq) hk
        (ih hcs (0, _) (Nat.zero_le _) hrun)

theorem multilineLiteralString_plain {cs rest : List Char} (hrest : ∀ c ∈ rest.head?, c ≠ '\'')
    (hcontrol : ∀ c ∈ cs, isControl c = false) (hrun : longestRun '\'' cs ≤ 2) :
    multilineLiteralString ((enclose "'''" cs (cs.contains '\n')).toList ++ rest) =
      some (String.ofList cs, rest) := by
  have hwritten := written_literal hrest hcontrol (0, 0) (Nat.zero_le _) hrun
  have hbody := hwritten.multilineBody_eq hrest (cs.contains '\n') fun h => by
    match cs with
    | [] => simp [newline]
    | c :: cs =>
      have hn := List.ne_of_not_mem_cons (show '\n' ∉ c :: cs by simpa using h)
      have hc := hcontrol c List.mem_cons_self
      exact newline_printable (isPrintable_of_isControl hc (Ne.symm hn)) _
  have htext : (enclose "'''" cs (cs.contains '\n')).toList ++ rest =
      "'''".toList ++ ((if cs.contains '\n' then ['\n'] else []) ++
        (cs ++ (List.replicate 3 '\'' ++ rest))) := by
    simp [toList_enclose]
  rw [htext, multilineLiteralString, bind_apply, word_apply, if_pos (by simp)]
  simpa using hbody

/-! ## All kinds -/

/-- One quote, and then none but the closing one, is no beginning of three quotes. -/
theorem not_three_quotes {q : Char} {code rest : List Char} (hcode : ∀ c ∈ code.head?, c ≠ q)
    (hrest : ∀ c ∈ rest.head?, c ≠ q) :
    [q, q, q].isPrefixOf (q :: (code ++ q :: rest)) = false := by
  match code, rest with
  | [], [] => simp
  | [], d :: rest =>
    have hd : q ≠ d := (hrest d rfl).symm
    simp [List.isPrefixOf, hd]
  | c :: code, rest =>
    have hc : q ≠ c := (hcode c rfl).symm
    simp [List.isPrefixOf, hc]

theorem of_ofText_literal {cs : List Char} (h : StringKind.ofText cs = .literal) :
    ∀ c ∈ cs, isLiteralChar c := by
  obtain ⟨hcontrol, hrun, hn⟩ : (∀ c ∈ cs, isControl c = false) ∧ longestRun '\'' cs = 0 ∧
      '\n' ∉ cs := by
    unfold StringKind.ofText at h
    grind
  intro c hc
  exact isLiteralChar_of_isControl (hcontrol c hc) (fun h => hn (h ▸ hc))
    (fun h => notMem_of_longestRun hrun (h ▸ hc))

theorem of_ofText_multilineLiteral {cs : List Char} (h : StringKind.ofText cs = .multilineLiteral) :
    (∀ c ∈ cs, isControl c = false) ∧ longestRun '\'' cs ≤ 2 := by
  unfold StringKind.ofText at h
  grind

/-- A string in single quotes is none in double quotes. -/
theorem basicStrings_single_quote (cs : List Char) :
    multilineBasicString ('\'' :: cs) = none ∧ basicString ('\'' :: cs) = none := by
  simp [multilineBasicString, basicString]

/-- A string is read back, whatever stands behind it save another quote. -/
theorem string_quote (text : String) {rest : List Char}
    (hrest : ∀ c ∈ rest.head?, c ≠ '"' ∧ c ≠ '\'') :
    string ((quote text).toList ++ rest) = some (text, rest) := by
  have hdouble : ∀ c ∈ rest.head?, c ≠ '"' := fun c hc => (hrest c hc).1
  have hsingle : ∀ c ∈ rest.head?, c ≠ '\'' := fun c hc => (hrest c hc).2
  obtain ⟨cs, rfl⟩ : ∃ cs, text = String.ofList cs := ⟨text.toList, text.ofList_toList.symm⟩
  rw [quote, String.toList_ofList, string]
  cases hkind : StringKind.ofText cs with
  | basic =>
    have hcode : ∀ c ∈ (cs.flatMap escapeChar).head?, c ≠ '"' := by
      match cs with
      | [] => simp
      | c :: cs =>
        obtain ⟨d, e, hcode, -, hd⟩ := escapeChar_eq_cons c
        simpa [hcode] using hd
    have hthree := not_three_quotes hcode hdouble
    have hline := basicString_escaped cs rest
    simp [toList_enclose, multilineBasicString, hthree, hline]
  | literal =>
    have hcs := of_ofText_literal hkind
    have hcode : ∀ c ∈ cs.head?, c ≠ '\'' := by
      rintro c hc rfl
      exact absurd (hcs _ (List.mem_of_mem_head? hc)) (by decide)
    have hthree := not_three_quotes hcode hsingle
    have hline := literalString_plain hcs rest
    obtain ⟨hmulti, hbasic⟩ := basicStrings_single_quote (cs ++ '\'' :: rest)
    simp [toList_enclose, multilineLiteralString, hthree, hline, hmulti, hbasic]
  | multilineBasic =>
    simp only [orElse_apply, multilineBasicString_escaped cs hdouble, Option.some_or]
  | multilineLiteral =>
    obtain ⟨hcontrol, hrun⟩ := of_ofText_multilineLiteral hkind
    have hlines := multilineLiteralString_plain hsingle hcontrol hrun
    obtain ⟨tail, htail⟩ : ∃ tail,
        (enclose "'''" cs (cs.contains '\n')).toList ++ rest = '\'' :: tail :=
      ⟨_, by simp only [toList_enclose]; rfl⟩
    obtain ⟨hmulti, hbasic⟩ := basicStrings_single_quote tail
    rw [htail] at hlines ⊢
    simp only [orElse_apply, hmulti, hbasic, hlines, Option.none_or, Option.some_or]

end DispatchGen.Toml
