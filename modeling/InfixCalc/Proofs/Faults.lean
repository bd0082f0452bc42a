import InfixCalc.Proofs.Results
import Mathlib.Data.List.Induction
/-!
# The first fault of a list

A run takes the items of a list one by one and carries a state along. Whether an item is at fault is
said without the state, by the items in front of it. A run that refuses an item exactly if it is at fault
gets through the lists without a fault, and ends any other list with its first fault.

Main statements: `Detects.exists_eq_ok_iff` and `Detects.eq_error_iff`.
-/

namespace InfixCalc

variable {σ α ε : Type}

/-! ## Faults -/

section
variable (fault : List α → α → ε → Prop)

/-- No item is at fault, where `fault before item e` means that `item` has the fault `e` behind the items
`before`. -/
def FaultFree (items : List α) : Prop :=
  ∀ before item after, items = before ++ item :: after → ∀ e, ¬ fault before item e

/-- The first item at fault has the fault `e`. -/
def FirstFault (items : List α) (e : ε) : Prop :=
  ∃ before item after, items = before ++ item :: after ∧ FaultFree fault before ∧
    fault before item e

end

variable {fault : List α → α → ε → Prop} {items : List α} {item : α} {e : ε}

theorem concat_eq_append_cons_iff {before after : List α} {item' : α} :
    items ++ [item] = before ++ item' :: after ↔
      (items = before ∧ item = item' ∧ after = []) ∨
        ∃ rest, after = rest ++ [item] ∧ items = before ++ item' :: rest := by
  rcases after.eq_nil_or_concat with rfl | ⟨rest, last, rfl⟩
  · simp
  · rw [List.concat_eq_append, ← List.cons_append, ← List.append_assoc]
    constructor
    · intro h
      obtain ⟨hitems, hlast⟩ := List.append_inj' h rfl
      cases hlast
      exact .inr ⟨rest, rfl, hitems⟩
    · rintro (⟨-, -, hnil⟩ | ⟨rest', hrest, hitems⟩)
      · simp at hnil
      · rw [hitems, List.append_assoc, List.append_assoc, List.cons_append, List.cons_append, hrest]

theorem faultFree_nil : FaultFree fault [] := by
  intro before item after h
  simp at h

theorem faultFree_concat_iff :
    FaultFree fault (items ++ [item]) ↔ FaultFree fault items ∧ ∀ e, ¬ fault items item e := by
  constructor
  · intro h
    refine ⟨fun before item' after hsplit => ?_, h items item [] rfl⟩
    exact h before item' (after ++ [item]) (by simp [hsplit])
  · rintro ⟨hitems, hitem⟩ before item' after hsplit
    rcases concat_eq_append_cons_iff.mp hsplit with ⟨rfl, rfl, -⟩ | ⟨rest, -, hsplit⟩
    · exact hitem
    · exact hitems before item' rest hsplit

theorem firstFault_concat_iff :
    FirstFault fault (items ++ [item]) e ↔
      FirstFault fault items e ∨ FaultFree fault items ∧ fault items item e := by
  constructor
  · rintro ⟨before, item', after, hsplit, hbefore, hfault⟩
    rcases concat_eq_append_cons_iff.mp hsplit with ⟨rfl, rfl, -⟩ | ⟨rest, -, hsplit⟩
    · exact .inr ⟨hbefore, hfault⟩
    · exact .inl ⟨before, item', rest, hsplit, hbefore, hfault⟩
  · rintro (⟨before, item', after, rfl, hbefore, hfault⟩ | ⟨hitems, hfault⟩)
    · exact ⟨before, item', after ++ [item], by simp, hbefore, hfault⟩
    · exact ⟨items, item, [], rfl, hitems, hfault⟩

/-- Nothing that follows changes the first fault. -/
theorem FirstFault.append (h : FirstFault fault items e) (more : List α) :
    FirstFault fault (items ++ more) e := by
  obtain ⟨before, item, after, rfl, hbefore, hfault⟩ := h
  exact ⟨before, item, after ++ more, by simp, hbefore, hfault⟩

/-! ## Runs -/

section
variable {step : σ → α → Except ε σ} {start state : σ}

theorem foldlM_concat (step : σ → α → Except ε σ) (start : σ) (items : List α) (item : α) :
    (items ++ [item]).foldlM step start =
      (items.foldlM step start).bind fun state => step state item := by
  rw [List.foldlM_append]
  show (items.foldlM step start).bind _ = _
  cases items.foldlM step start with
  | error e => rfl
  | ok state =>
    show (step state item).bind .ok = step state item
    cases step state item <;> rfl

/-- What holds before the first item and is kept by each step holds after the last. -/
theorem foldlM_induction {P : List α → σ → Prop} (hnil : P [] start)
    (hstep : ∀ {items state item next}, P items state → step state item = .ok next →
      P (items ++ [item]) next)
    (h : items.foldlM step start = .ok state) : P items state := by
  induction items using List.reverseRecOn generalizing state with
  | nil =>
    cases h
    exact hnil
  | append_singleton items item ih =>
    rw [foldlM_concat, Except.bind_eq_ok_iff] at h
    obtain ⟨before, hitems, hitem⟩ := h
    exact hstep (ih hitems) hitem

/-- The run refuses an item exactly if it is at fault. -/
def Detects (step : σ → α → Except ε σ) (start : σ) (fault : List α → α → ε → Prop) : Prop :=
  ∀ {items state}, items.foldlM step start = .ok state →
    ∀ item e, step state item = .error e ↔ fault items item e

namespace Detects

theorem step_ok_iff (h : Detects step start fault) (hrun : items.foldlM step start = .ok state) :
    (∃ next, step state item = .ok next) ↔ ∀ e, ¬ fault items item e := by
  have hitem := h hrun item
  constructor
  · rintro ⟨next, hstep⟩ e hfault
    rw [← hitem, hstep] at hfault
    cases hfault
  · intro hnone
    cases hstep : step state item with
    | ok next => exact ⟨next, rfl⟩
    | error e => exact absurd ((hitem e).mp hstep) (hnone e)

/-- **A run gets through a list exactly if no item is at fault.** -/
theorem exists_eq_ok_iff (h : Detects step start fault) :
    (∃ state, items.foldlM step start = .ok state) ↔ FaultFree fault items := by
  induction items using List.reverseRecOn with
  | nil => exact ⟨fun _ => faultFree_nil, fun _ => ⟨start, rfl⟩⟩
  | append_singleton items item ih =>
    rw [faultFree_concat_iff, ← ih, foldlM_concat]
    constructor
    · rintro ⟨last, hlast⟩
      obtain ⟨state, hrun, hstep⟩ := Except.bind_eq_ok_iff.mp hlast
      exact ⟨⟨state, hrun⟩, (h.step_ok_iff hrun).mp ⟨last, hstep⟩⟩
    · rintro ⟨⟨state, hrun⟩, hnone⟩
      obtain ⟨last, hstep⟩ := (h.step_ok_iff hrun).mpr hnone
      exact ⟨last, Except.bind_eq_ok_iff.mpr ⟨state, hrun, hstep⟩⟩

/-- **A run ends with the first fault.** -/
theorem eq_error_iff (h : Detects step start fault) :
    items.foldlM step start = .error e ↔ FirstFault fault items e := by
  induction items using List.reverseRecOn with
  | nil =>
    constructor
    · intro hnil
      cases hnil
    · rintro ⟨before, item, after, hsplit, -⟩
      simp at hsplit
  | append_singleton items item ih =>
    rw [firstFault_concat_iff, ← ih, ← h.exists_eq_ok_iff, foldlM_concat, Except.bind_eq_error_iff]
    apply or_congr_right
    constructor
    · rintro ⟨state, hrun, hstep⟩
      exact ⟨⟨state, hrun⟩, (h hrun item e).mp hstep⟩
    · rintro ⟨⟨state, hrun⟩, hfault⟩
      exact ⟨state, hrun, (h hrun item e).mpr hfault⟩

end Detects

end

end InfixCalc
