/-!
# Checking a list in order

`checkEach` runs a check on every member of a list, with the members before it at hand, and stops at
the first complaint. `checkEach_eq_ok_iff` says when nothing is wrong, `checkEach_eq_error_iff` which
complaint is made.
-/

namespace DispatchGen

variable {α ε : Type}

/-- Checks each member against those before it (`before`, the latest first). -/
def checkEach (check : List α → α → Except ε Unit) (before : List α) : List α → Except ε Unit
  | [] => .ok ()
  | x :: rest =>
    match check before x with
    | .ok () => checkEach check (x :: before) rest
    | .error e => .error e

theorem checkEach_eq_ok_iff {check : List α → α → Except ε Unit} {before xs : List α} :
    checkEach check before xs = .ok () ↔
      ∀ front x rest, xs = front ++ x :: rest → check (front.reverse ++ before) x = .ok () := by
  induction xs generalizing before with
  | nil => simp [checkEach]
  | cons y ys ih =>
    rw [checkEach]
    constructor
    · intro h front x rest e
      cases hc : check before y with
      | error => simp [hc] at h
      | ok =>
        simp only [hc] at h
        cases front with
        | nil => simp only [List.nil_append, List.cons.injEq] at e; simpa [e.1] using e.1 ▸ hc
        | cons z front =>
          simp only [List.cons_append, List.cons.injEq] at e
          obtain ⟨rfl, e⟩ := e
          simpa using ih.1 h front x rest e
    · intro h
      have hc : check before y = .ok () := by simpa using h [] y ys rfl
      simp only [hc]
      exact ih.2 fun front x rest e => by simpa using h (y :: front) x rest (by simp [e])

theorem checkEach_eq_error_iff {check : List α → α → Except ε Unit} {before xs : List α} {e : ε} :
    checkEach check before xs = .error e ↔
      ∃ front x rest, xs = front ++ x :: rest ∧ checkEach check before front = .ok () ∧
        check (front.reverse ++ before) x = .error e := by
  induction xs generalizing before with
  | nil => simp [checkEach]
  | cons y ys ih =>
    rw [checkEach]
    constructor
    · intro h
      cases hc : check before y with
      | error =>
        simp only [hc, Except.error.injEq] at h
        exact ⟨[], y, ys, rfl, rfl, by simp [hc, h]⟩
      | ok =>
        simp only [hc] at h
        obtain ⟨front, x, rest, rfl, hf, hx⟩ := ih.1 h
        exact ⟨y :: front, x, rest, rfl, by simp [checkEach, hc, hf], by simpa using hx⟩
    · rintro ⟨front, x, rest, e', hf, hx⟩
      cases front with
      | nil =>
        simp only [List.nil_append, List.cons.injEq] at e'
        obtain ⟨rfl, rfl⟩ := e'
        simp only [List.reverse_nil, List.nil_append] at hx
        simp [hx]
      | cons z front =>
        simp only [List.cons_append, List.cons.injEq] at e'
        obtain ⟨rfl, rfl⟩ := e'
        cases hc : check before y with
        | error => simp [checkEach, hc] at hf
        | ok =>
          simp only [checkEach, hc] at hf ⊢
          exact ih.2 ⟨front, x, rest, rfl, hf, by simpa using hx⟩

end DispatchGen
