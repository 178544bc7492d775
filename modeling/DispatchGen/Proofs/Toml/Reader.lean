import DispatchGen.Toml.Reader
import Mathlib.Data.List.TakeDrop

/-!
# Laws of readers

What the combinators do to a text, as equations that `simp` runs them by, and what runs of characters
and repeated items take off it. `Repeats` unrolls `many`: items are taken until one fails.
-/

namespace DispatchGen.Toml.Reader

variable {α β : Type}

/-- What holds of all characters of a list is decided by going through the list; there is also an
instance that goes through all characters there are. -/
instance decidableForallMem {p : Char → Prop} [DecidablePred p] (cs : List Char) :
    Decidable (∀ c ∈ cs, p c) :=
  List.decidableBAll p cs

/-! ## Combinators -/

@[simp] theorem pure_apply (a : α) (cs : List Char) : (pure a : Reader α) cs = some (a, cs) :=
  rfl

@[simp] theorem bind_apply (x : Reader α) (f : α → Reader β) (cs : List Char) :
    (x >>= f) cs = (x cs).bind fun r => f r.1 r.2 :=
  rfl

@[simp] theorem map_apply (f : α → β) (x : Reader α) (cs : List Char) :
    (f <$> x) cs = (x cs).map fun r => (f r.1, r.2) := by
  change (x cs).bind _ = _
  cases x cs <;> rfl

@[simp] theorem seqRight_apply (x : Reader α) (y : Reader β) (cs : List Char) :
    (x *> y) cs = (x cs).bind fun r => y r.2 :=
  rfl

@[simp] theorem orElse_apply (x y : Reader α) (cs : List Char) :
    (x <|> y) cs = (x cs).or (y cs) := by
  change (x cs <|> y cs) = _
  cases x cs <;> rfl

@[simp] theorem failure_apply (cs : List Char) : (failure : Reader α) cs = none :=
  rfl

@[simp] theorem guard_apply (p : Prop) [Decidable p] (cs : List Char) :
    (guard p : Reader Unit) cs = if p then some ((), cs) else none := by
  unfold guard
  split <;> rfl

theorem optional_of_some {x : Reader α} {cs rest : List Char} {a : α} (h : x cs = some (a, rest)) :
    (optional x : Reader (Option α)) cs = some (some a, rest) := by
  simp [optional, h]

theorem optional_of_none {x : Reader α} {cs : List Char} (h : x cs = none) :
    (optional x : Reader (Option α)) cs = some (none, cs) := by
  simp [optional, h]

/-! ## Characters -/

@[simp] theorem satisfy_nil (accept : Char → Bool) : satisfy accept [] = none :=
  rfl

@[simp] theorem satisfy_cons (accept : Char → Bool) (c : Char) (cs : List Char) :
    satisfy accept (c :: cs) = if accept c then some (c, cs) else none :=
  rfl

@[simp] theorem char_nil (c : Char) : char c [] = none :=
  rfl

@[simp] theorem char_cons (c d : Char) (cs : List Char) :
    char c (d :: cs) = if d = c then some ((), cs) else none := by
  simp only [char, bind_apply, satisfy_cons, beq_iff_eq]
  split <;> rfl

@[simp] theorem word_apply (text : String) (cs : List Char) :
    word text cs =
      if text.toList.isPrefixOf cs then some ((), cs.drop text.toList.length) else none := by
  rw [word, String.length_toList]

@[simp] theorem peek_apply (cs : List Char) : peek cs = some (cs.head?, cs) :=
  rfl

@[simp] theorem run_apply (accept : Char → Bool) (cs : List Char) :
    run accept cs = some (cs.takeWhile accept, cs.dropWhile accept) := by
  rw [run, List.span_eq_takeWhile_dropWhile]

/-! ## Runs of characters -/

variable {accept : Char → Bool} {taken rest : List Char}

/-- A run of characters ends where no further one follows. -/
theorem run_append (htaken : ∀ c ∈ taken, accept c) (hrest : ∀ c ∈ rest.head?, accept c = false) :
    run accept (taken ++ rest) = some (taken, rest) := by
  rw [run_apply, List.takeWhile_append_of_pos htaken, List.dropWhile_append_of_pos htaken]
  cases rest with
  | nil => simp
  | cons c cs => simp [hrest c rfl]

theorem run1_append (hne : taken ≠ []) (htaken : ∀ c ∈ taken, accept c)
    (hrest : ∀ c ∈ rest.head?, accept c = false) :
    run1 accept (taken ++ rest) = some (taken, rest) := by
  obtain ⟨c, cs, rfl⟩ := List.exists_cons_of_ne_nil hne
  obtain ⟨hc, hcs⟩ := List.forall_mem_cons.mp htaken
  simp only [run1, List.cons_append, bind_apply, satisfy_cons, hc, if_true, Option.bind_some,
    run_append hcs hrest, pure_apply]

/-! ## Repetition -/

/-- The item is taken off the text again and again, until it fails. -/
inductive Repeats (item : Reader α) : List Char → List α → List Char → Prop
  | stop {cs : List Char} (fails : item cs = none) : Repeats item cs [] cs
  | item {cs mid rest : List Char} {a : α} {as : List α} (takes : item cs = some (a, mid))
      (shorter : mid.length < cs.length) (more : Repeats item mid as rest) :
      Repeats item cs (a :: as) rest

theorem Repeats.upTo_eq {item : Reader α} {cs rest : List Char} {as : List α}
    (h : Repeats item cs as rest) {limit : Nat} (hlimit : cs.length ≤ limit) :
    upTo item limit cs = some (as, rest) := by
  induction h generalizing limit with
  | stop fails => cases limit <;> simp [upTo, fails]
  | item takes shorter more ih =>
    obtain ⟨limit, rfl⟩ := Nat.exists_eq_add_of_lt (Nat.lt_of_lt_of_le shorter hlimit)
    simp [upTo, takes, ih (Nat.le_add_right ..)]

theorem Repeats.many_eq {item : Reader α} {cs rest : List Char} {as : List α}
    (h : Repeats item cs as rest) : many item cs = some (as, rest) :=
  h.upTo_eq (Nat.le_refl _)

/-- Codes that stand one behind the other are taken one by one, where each may be followed by the next
and the last by the rest. -/
theorem repeats_flatMap {item : Reader α} (code : β → List Char) (val : β → α)
    (follow : List Char → Prop) {rest : List Char} (hstop : item rest = none) (hrest : follow rest)
    {bs : List β} (hne : ∀ b ∈ bs, code b ≠ []) (hfollow : ∀ b ∈ bs, ∀ cs, follow (code b ++ cs))
    (hitem : ∀ b ∈ bs, ∀ cs, follow cs → item (code b ++ cs) = some (val b, cs)) :
    Repeats item (bs.flatMap code ++ rest) (bs.map val) rest := by
  induction bs with
  | nil => exact .stop hstop
  | cons b bs ih =>
    obtain ⟨hb, hbs⟩ := List.forall_mem_cons.mp hne
    obtain ⟨-, hbsfollow⟩ := List.forall_mem_cons.mp hfollow
    obtain ⟨hbitem, hbsitem⟩ := List.forall_mem_cons.mp hitem
    have hnext : follow (bs.flatMap code ++ rest) := by
      cases bs with
      | nil => exact hrest
      | cons d ds =>
        rw [List.flatMap_cons, List.append_assoc]
        exact hbsfollow d List.mem_cons_self _
    rw [List.flatMap_cons, List.append_assoc, List.map_cons]
    refine .item (hbitem _ hnext) ?_ (ih hbs hbsfollow hbsitem)
    have hpos := List.length_pos_iff.mpr hb
    simp only [List.length_append]
    omega

end DispatchGen.Toml.Reader
