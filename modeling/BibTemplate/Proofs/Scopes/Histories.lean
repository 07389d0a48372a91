import BibTemplate.Scopes
import Mathlib.Data.List.Basic

/-!
# Histories of scopes

A history is a row of operations on the scopes around a root. A pop undoes the latest push
that has not been undone yet, and where there is none it does nothing. So a push is undone
as soon as there have been more pops than pushes behind it, and what is left of a history
are the scopes of the other pushes, in their order.
-/
namespace BibTemplate.Scopes

/-- What can be done to scopes. -/
inductive Operation where
  | push (v : Value)
  | pushItem (v : Value) (p : LoopPosition)
  | pop

namespace Operation

def run : Operation → Scopes → Scopes
  | push v, s => s.push v
  | pushItem v p, s => s.pushItem v p
  | pop, s => s.pop

/-- The scope that is gone into. -/
def entered? : Operation → Option Scope
  | push v => some ⟨v, none⟩
  | pushItem v p => some ⟨v, some p⟩
  | pop => none

def pushes (ops : List Operation) : ℕ :=
  ops.countP fun op => op.entered?.isSome

def pops (ops : List Operation) : ℕ :=
  ops.countP fun op => op.entered?.isNone

/-- The operations do not undo the push in front of them: up to no point among them are there
more pops than pushes. -/
def Spare (later : List Operation) : Prop :=
  ∀ done, done <+: later → pops done ≤ pushes done

/-- How many pushes in front of a history it undoes, if there are as many. -/
def undone : List Operation → ℕ
  | [] => 0
  | op :: later => if op.entered?.isSome then undone later - 1 else undone later + 1

variable {op : Operation} {later : List Operation}

theorem pops_cons (op : Operation) (ops : List Operation) :
    pops (op :: ops) = pops ops + if op.entered?.isNone then 1 else 0 :=
  List.countP_cons

theorem pushes_cons (op : Operation) (ops : List Operation) :
    pushes (op :: ops) = pushes ops + if op.entered?.isSome then 1 else 0 :=
  List.countP_cons

theorem forall_prefix_cons {P : List Operation → Prop} :
    (∀ done, done <+: op :: later → P done) ↔ P [] ∧ ∀ done, done <+: later → P (op :: done) := by
  constructor
  · intro h
    exact ⟨h [] List.nil_prefix, fun done hd => h (op :: done) ((List.prefix_cons_inj op).2 hd)⟩
  · rintro ⟨hnil, hcons⟩ done hd
    rcases List.prefix_cons_iff.1 hd with rfl | ⟨rest, rfl, hrest⟩
    · exact hnil
    · exact hcons rest hrest

/-- A history undoes as many pushes in front of it as it has more pops than pushes, at the point
where these are most. -/
theorem forall_prefix_iff {n : ℕ} :
    (∀ done, done <+: later → pops done ≤ pushes done + n) ↔ undone later ≤ n := by
  -- Behind a push one pop more is allowed, behind a pop one less.
  induction later generalizing n with
  | nil => simp [undone, pops]
  | cons op later ih =>
    have hnil : pops [] ≤ pushes [] + n := Nat.zero_le _
    rw [forall_prefix_cons, and_iff_right hnil, undone]
    cases hop : op.entered? with
    | some scope =>
      have hshift : ∀ done, pops (op :: done) ≤ pushes (op :: done) + n ↔
          pops done ≤ pushes done + (n + 1) := by
        intro done
        simp only [pops_cons, pushes_cons, hop, Option.isNone_some, Option.isSome_some, if_true,
          Bool.false_eq_true, if_false]
        omega
      simp only [hshift, ih, Option.isSome_some, if_true]
      omega
    | none =>
      have hshift : ∀ done, pops (op :: done) ≤ pushes (op :: done) + n ↔
          pops done + 1 ≤ pushes done + n := by
        intro done
        simp only [pops_cons, pushes_cons, hop, Option.isNone_none, Option.isSome_none, if_true,
          Bool.false_eq_true, if_false, Nat.add_zero]
      simp only [hshift, Option.isSome_none, Bool.false_eq_true, if_false]
      cases n with
      | zero =>
        have hpop : ¬ pops [] + 1 ≤ pushes [] + 0 := by decide
        exact iff_of_false (fun h => hpop (h [] List.nil_prefix)) (Nat.not_succ_le_zero _)
      | succ n =>
        simp only [← Nat.add_assoc, Nat.add_le_add_iff_right]
        exact ih

theorem spare_iff : Spare later ↔ undone later = 0 := by
  rw [← Nat.le_zero, ← forall_prefix_iff]
  rfl

instance : DecidablePred Spare := fun _ => decidable_of_iff _ spare_iff.symm

end Operation

open Operation

/-- The scopes whose pushes a history has not undone, the earliest first. -/
def standing : List Operation → List Scope
  | [] => []
  | op :: later => (if Spare later then op.entered?.toList else []) ++ standing later

def runAll (s : Scopes) (history : List Operation) : Scopes :=
  history.foldl (fun s op => op.run s) s

variable {op : Operation} {history : List Operation}

theorem runAll_concat (s : Scopes) (history : List Operation) (op : Operation) :
    s.runAll (history ++ [op]) = op.run (s.runAll history) := by
  rw [runAll, List.foldl_concat, ← runAll]

theorem root_run (op : Operation) (s : Scopes) : (op.run s).root = s.root := by
  cases op <;> rfl

theorem inner_run_of_some {scope : Scope} (h : op.entered? = some scope) (s : Scopes) :
    (op.run s).inner = scope :: s.inner := by
  cases op with
  | pop => cases h
  | push v => cases h; rfl
  | pushItem v p => cases h; rfl

theorem inner_run_of_none (h : op.entered? = none) (s : Scopes) :
    (op.run s).inner = s.inner.tail := by
  cases op with
  | pop => rfl
  | push v => cases h
  | pushItem v p => cases h

theorem root_runAll (s : Scopes) (history : List Operation) :
    (s.runAll history).root = s.root := by
  induction history generalizing s with
  | nil => rfl
  | cons op history ih => exact (ih (op.run s)).trans (root_run op s)

/-- A history undoes some of the scopes that it finds, and puts those that are standing at its
end inside the others. -/
theorem inner_runAll (s : Scopes) (history : List Operation) :
    (s.runAll history).inner = (standing history).reverse ++ s.inner.drop (undone history) := by
  induction history generalizing s with
  | nil => rfl
  | cons op later ih =>
    have hstep : (s.runAll (op :: later)).inner =
        (standing later).reverse ++ (op.run s).inner.drop (undone later) := ih (op.run s)
    rw [hstep, standing, undone]
    cases hop : op.entered? with
    | none => simp [inner_run_of_none hop]
    | some scope =>
      rw [inner_run_of_some hop]
      cases hu : undone later with
      | zero => simp [spare_iff, hu]
      | succ n => simp [spare_iff, hu]

theorem toList_runAll_ofRoot (root : Value) (history : List Operation) :
    ((ofRoot root).runAll history).toList = (⟨root, none⟩ :: standing history).reverse := by
  rw [toList, inner_runAll, root_runAll, ofRoot, List.drop_nil, List.append_nil,
    List.reverse_cons]

theorem runAll_ofRoot_concat_pop (root : Value) (h : standing history = []) :
    (ofRoot root).runAll (history ++ [.pop]) = (ofRoot root).runAll history := by
  have hinner : ((ofRoot root).runAll history).inner = [] := by
    rw [inner_runAll, h, ofRoot, List.drop_nil]
    rfl
  rw [runAll_concat, run, pop, hinner, List.tail_nil, ← hinner]

theorem toList_ne_nil (s : Scopes) : s.toList ≠ [] := by
  simp [toList]

theorem current_eq_head (s : Scopes) : s.current = (s.toList.head s.toList_ne_nil).value := by
  obtain ⟨root, inner⟩ := s
  cases inner <;> rfl

theorem current_runAll_ofRoot (root : Value) (history : List Operation) :
    ((ofRoot root).runAll history).current =
      ((⟨root, none⟩ :: standing history).getLast (List.cons_ne_nil _ _)).value := by
  simp only [current_eq_head, toList_runAll_ofRoot, List.head_reverse]

end BibTemplate.Scopes
