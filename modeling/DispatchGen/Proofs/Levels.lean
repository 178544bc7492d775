import DispatchGen.Proofs.Margins

/-!
# How far in an artifact goes

How far in the lines of an artifact stand does not depend on what is in it: a routine has seven levels
in C++ and three in Rust, a declaration has one. A layout fits if the margin of its last level does
(`Layout.Within`), and only if it does (`Layout.Attains`); for the parts of an artifact that is all
there is to it (`Options.fits_routine_iff`, `Options.fits_stubs_iff`, `Options.fits_header`).
-/

namespace DispatchGen

/-! ## Levels of a layout -/

namespace Layout

/-- Where the margin `k` levels in is a string, the layout fits. -/
def Within (k : Nat) (layout : Layout) : Prop :=
  ∀ (style : IndentStyle) (depth : Nat), depth + k ≤ maxWord → style.Fits (depth + k) →
    Fits style depth layout

/-- The layout fits only where the margin `k` levels in is a string. -/
def Attains (k : Nat) (layout : Layout) : Prop :=
  ∀ (style : IndentStyle) (depth : Nat), Fits style depth layout → style.Fits (depth + k)

variable {k : Nat} {a b body rest layout : Layout} {text opening : String} {closing : Option String}

theorem fits_iff (hwithin : Within k layout) (hattains : Attains k layout) (hk : k ≤ maxWord)
    {style : IndentStyle} : Fits style 0 layout ↔ style.Fits k := by
  have h : Fits style 0 layout ↔ style.Fits (0 + k) :=
    ⟨hattains style 0, hwithin style 0 (by omega)⟩
  rwa [Nat.zero_add] at h

namespace Within

theorem mono {n : Nat} (h : Within k layout) (hk : k ≤ n) : Within n layout := by
  intro style depth hdepth hfits
  exact h style depth (by omega) (hfits.mono (by omega))

theorem nil : Within k [] :=
  fun _ _ _ _ => trivial

theorem line (h : Within k rest) : Within k (.line text :: rest) :=
  fun style depth hdepth hfits =>
    ⟨hfits.mono (Nat.le_add_right depth k), h style depth hdepth hfits⟩

theorem blank (h : Within k rest) : Within k (.blank :: rest) :=
  fun style depth hdepth hfits => ⟨trivial, h style depth hdepth hfits⟩

theorem block (hbalanced : Balanced body) (hbody : Within k body) (h : Within (k + 1) rest) :
    Within (k + 1) (.block opening body closing :: rest) := by
  intro style depth hdepth hfits
  have hback : depthAfter (depth + 1) body - 1 = depth := by
    rw [hbalanced.depthAfter_eq, Nat.add_sub_cancel]
  have hopening : style.Fits depth := hfits.mono (Nat.le_add_right depth (k + 1))
  have hinside : Fits style (depth + 1) body := by
    rw [Nat.add_comm k 1, ← Nat.add_assoc] at hdepth hfits
    exact hbody style (depth + 1) hdepth hfits
  refine ⟨⟨hopening, by omega, hinside, fun _ => hback.symm ▸ hopening⟩, ?_⟩
  rw [Step.depthAfter, hback]
  exact h style depth hdepth hfits

theorem append (hbalanced : Balanced a) (ha : Within k a) (hb : Within k b) : Within k (a ++ b) :=
  fun style depth hdepth hfits =>
    hbalanced.fits_append.2 ⟨ha style depth hdepth hfits, hb style depth hdepth hfits⟩

theorem flatMap {α : Type} {f : α → Layout} (hbalanced : ∀ x, Balanced (f x))
    (h : ∀ x, Within k (f x)) (xs : List α) : Within k (xs.flatMap f) := by
  induction xs with
  | nil => exact nil
  | cons x xs ih => exact append (hbalanced x) (h x) ih

theorem map_line {α : Type} (f : α → String) (xs : List α) :
    Within k (xs.map fun x => .line (f x)) := by
  rw [List.map_eq_flatMap]
  exact flatMap (fun x => .line .nil) (fun x => line nil) xs

end Within

namespace Attains

theorem here : Attains 0 (.line text :: rest) :=
  fun _ _ h => h.1

theorem line (h : Attains k rest) : Attains k (.line text :: rest) :=
  fun style depth hfits => h style depth hfits.2

theorem blank (h : Attains k rest) : Attains k (.blank :: rest) :=
  fun style depth hfits => h style depth hfits.2

theorem block (h : Attains k body) : Attains (k + 1) (.block opening body closing :: rest) := by
  rintro style depth ⟨⟨-, -, hbody, -⟩, -⟩
  rw [Nat.add_comm k 1, ← Nat.add_assoc]
  exact h style (depth + 1) hbody

theorem append (hbalanced : Balanced a) (h : Attains k b) : Attains k (a ++ b) :=
  fun style depth hfits => h style depth (hbalanced.fits_append.1 hfits).2

end Attains

end Layout

/-! ## Levels of the parts -/

open Layout

namespace Cpp

variable (o : Options)

theorem within_stub (s : Stub) : Within 1 (stub o s) :=
  .line (.block (.line (.line .nil)) (.line (.line .nil)) .nil)

theorem attains_stub (s : Stub) : Attains 1 (stub o s) :=
  .line (.block .here)

theorem within_arm (base : UInt32) (a : Arm) : Within 1 (arm o base a) :=
  .block (.line (.line .nil)) (.line (.line .nil)) .nil

theorem within_controls (entries : List ControlEntry) : Within 1 (controls o entries) := by
  rw [controls]
  split
  · exact .nil
  · have hbreak : Within 1 [.indent, .line "break;", .dedent, .blank] :=
      fun _ _ hdepth hfits => ⟨hdepth, hfits, trivial, trivial, trivial⟩
    exact .append (.map_line ..) (Within.map_line _ _) hbreak

theorem within_unknownKey : Within 2 (unknownKey o) :=
  have hcall {text call : String} {a b c : String} :
      Balanced [.block call [.line a, .line b, .line c] (some ");"), .line text] :=
    .block (.line (.line (.line .nil))) (.line .nil)
  .block hcall (.block (.line (.line (.line .nil))) (.line (.line (.line .nil))) (.line .nil)) .nil

/-- What is reported of an unknown key. -/
theorem attains_unknownKey : Attains 2 (unknownKey o) :=
  .block (.block .here)

theorem within_dispatch (t : Table) : Within 3 (dispatch o t) := by
  have hbalanced : Balanced (t.arms.flatMap (arm o t.base)) :=
    .flatMap fun a _ => balanced_arm o t.base a
  have harms : Within 2 (t.arms.flatMap (arm o t.base)) :=
    (Within.flatMap (balanced_arm o t.base) (within_arm o t.base) t.arms).mono (by decide)
  have hkeys : Within 2 (t.arms.flatMap (arm o t.base) ++ .blank :: unknownKey o) :=
    .append hbalanced harms (.blank (within_unknownKey o))
  exact .line (.block (balanced_keys o t) hkeys (.line .nil))

theorem attains_dispatch (t : Table) : Attains 3 (dispatch o t) := by
  have hbalanced : Balanced (t.arms.flatMap (arm o t.base)) :=
    .flatMap fun a _ => balanced_arm o t.base a
  exact .line (.block (.append hbalanced (.blank (attains_unknownKey o))))

theorem within_routine (t : Table) : Within 7 (routine o t) := by
  have hopcodes : Within 4 (controls o t.controls ++ [.braced "default:" (dispatch o t)]) :=
    .append (balanced_controls o t.controls) ((within_controls o t.controls).mono (by decide))
      (.block (balanced_dispatch o t) (within_dispatch o t) .nil)
  have hloop {head instr : String} : Within 5 [.line instr, .braced head (controls o t.controls ++
      [.braced "default:" (dispatch o t)])] :=
    .line (.block (balanced_opcodes o t) hopcodes .nil)
  exact .block (.block (balanced_loop o t) (.line .nil))
    (.block (balanced_loop o t) hloop (.line .nil)) .nil

theorem attains_routine (t : Table) : Attains 7 (routine o t) := by
  have hopcodes : Attains 4 (controls o t.controls ++ [.braced "default:" (dispatch o t)]) :=
    .append (balanced_controls o t.controls) (.block (attains_dispatch o t))
  exact .block (.block (.line (.block hopcodes)))

end Cpp

namespace Rust

variable (o : Options)

theorem within_stub (s : Stub) : Within 1 (stub o s) :=
  .block (.line (.line (.line .nil))) (.line (.line (.line .nil))) .nil

theorem attains_stub (s : Stub) : Attains 1 (stub o s) :=
  .block .here

theorem within_controls (entries : List ControlEntry) : Within 1 (controls o entries) := by
  have htest {test : String} : Within 1 [.braced test [.line "continue;"]] :=
    .block (.line .nil) (.line .nil) .nil
  rw [controls]
  split
  · exact .nil
  · split
    · exact .line htest
    · exact htest

theorem within_element : Within 1 (element o) :=
  .block (.line (.line .nil)) (.line (.line .nil)) .nil

theorem within_routine (t : Table) : Within 3 (routine o t) := by
  have hbalanced : Balanced (t.arms.flatMap (arm o)) := .flatMap fun a _ => balanced_arm o a
  have hkeys {other : String} : Within 0 (t.arms.flatMap (arm o) ++ [.line other]) :=
    .append hbalanced (.flatMap (balanced_arm o) (fun _ => .line .nil) t.arms) (.line .nil)
  have hfront {opcode : String} : Within 1 (.line opcode :: controls o t.controls ++ element o) :=
    .append (.line (balanced_controls o t.controls)) (.line (within_controls o t.controls))
      (within_element o)
  exact .block (.block (balanced_loop o t) (.line .nil))
    (.block (balanced_loop o t)
      (.append (balanced_front o t) hfront (.line (.block (balanced_keys o t) hkeys .nil)))
      (.line .nil)) .nil

/-- What is done with a key that has no arm. -/
theorem attains_routine (t : Table) : Attains 3 (routine o t) := by
  have hbalanced : Balanced (t.arms.flatMap (arm o)) := .flatMap fun a _ => balanced_arm o a
  have hkeys {other : String} : Attains 0 (t.arms.flatMap (arm o) ++ [.line other]) :=
    .append hbalanced .here
  exact .block (.block (.append (balanced_front o t) (.line (.block hkeys))))

end Rust

/-- The levels of a routine. -/
def Target.levels : Target → Nat
  | .cpp => 7
  | .rust => 3

namespace Options

variable {o : Options} {style : IndentStyle}

theorem fits_header (catalog : String) : Fits style 0 (o.header catalog) := by
  have hzero : style.Fits 0 := by
    rw [IndentStyle.Fits, IndentStyle.blanks, Nat.zero_mul, ite_self]
    exact Nat.zero_le _
  rw [header]
  split
  · exact ⟨hzero, trivial⟩
  · exact ⟨hzero, trivial⟩

theorem fits_stub_iff {s : Stub} : Fits style 0 (o.stub s) ↔ style.Fits 1 := by
  rw [stub]
  split
  · exact fits_iff (Cpp.within_stub o s) (Cpp.attains_stub o s) (by decide)
  · exact fits_iff (Rust.within_stub o s) (Rust.attains_stub o s) (by decide)

theorem fits_stubs_iff {handlers : List Stub} :
    Fits style 0 (o.stubs handlers) ↔ (handlers ≠ [] → style.Fits 1) := by
  induction handlers with
  | nil => simp [stubs, Fits]
  | cons s rest ih =>
    cases rest with
    | nil => simpa [stubs] using fits_stub_iff
    | cons next rest =>
      have hbalanced : Balanced (o.stub s) := (Emits.stub s).balanced
      have hrest : Fits style 0 (.blank :: o.stubs (next :: rest)) ↔ style.Fits 1 := by
        simpa [Fits, Step.Fits, Step.depthAfter] using ih
      rw [stubs_cons_cons, hbalanced.fits_append, fits_stub_iff, hrest]
      simp

theorem fits_routine_iff {t : Table} :
    Fits style 0 (o.routine t) ↔ style.Fits o.target.levels := by
  rw [routine]
  split
  · next htarget =>
    rw [htarget]
    exact fits_iff (Cpp.within_routine o t) (Cpp.attains_routine o t) (by decide)
  · next htarget =>
    rw [htarget]
    exact fits_iff (Rust.within_routine o t) (Rust.attains_routine o t) (by decide)

end Options

end DispatchGen
