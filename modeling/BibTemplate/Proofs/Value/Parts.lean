import BibTemplate.Value.Basic
import Mathlib.Data.List.Basic

/-!
# The parts of a value

A value is made of scalars by lists and objects. What holds of a value because of its parts
is proved by induction over them.
-/
namespace BibTemplate.Value

/-- Induction over the parts of a value. -/
@[elab_as_elim]
theorem induction {motive : Value → Prop} (null : motive .null) (bool : ∀ b, motive (.bool b))
    (integer : ∀ n, motive (.integer n)) (float : ∀ x, motive (.float x))
    (string : ∀ s, motive (.string s))
    (list : ∀ items, (∀ v ∈ items, motive v) → motive (.list items))
    (object : ∀ ms : Members, (∀ m ∈ ms, motive m.2) → motive (.object ms)) (v : Value) :
    motive v :=
  @Value.rec motive (fun items => ∀ v ∈ items, motive v) (fun ms => ∀ m ∈ ms, motive m.2)
    (fun m => motive m.2) null bool integer float string list object
    (List.forall_mem_nil _) (fun _ _ hv hvs => List.forall_mem_cons.2 ⟨hv, hvs⟩)
    (List.forall_mem_nil _) (fun _ _ hm hms => List.forall_mem_cons.2 ⟨hm, hms⟩)
    (fun _ _ hv => hv) v

/-- A value occurs in another: it is that value, or it occurs in one of its parts. -/
inductive Within (w : Value) : Value → Prop
  | self : Within w w
  | item {v : Value} {items : List Value} : v ∈ items → Within w v → Within w (.list items)
  | member {m : String × Value} {ms : Members} : m ∈ ms → Within w m.2 → Within w (.object ms)

/-- No double occurs in the value. -/
def FloatFree (v : Value) : Prop :=
  ∀ x, ¬ Within (.float x) v

/-- No object in the value has a key twice. -/
def DistinctKeys (v : Value) : Prop :=
  ∀ ms, Within (.object ms) v → (ms.map Prod.fst).Nodup

variable {w : Value} {items : List Value} {ms : Members}

theorem within_list_iff : Within w (.list items) ↔ w = .list items ∨ ∃ v ∈ items, Within w v := by
  constructor
  · intro h
    cases h with
    | self => exact .inl rfl
    | item hv h => exact .inr ⟨_, hv, h⟩
  · intro h
    rcases h with rfl | ⟨v, hv, h⟩
    · exact .self
    · exact .item hv h

theorem within_object_iff :
    Within w (.object ms) ↔ w = .object ms ∨ ∃ m ∈ ms, Within w m.2 := by
  constructor
  · intro h
    cases h with
    | self => exact .inl rfl
    | member hm h => exact .inr ⟨_, hm, h⟩
  · intro h
    rcases h with rfl | ⟨m, hm, h⟩
    · exact .self
    · exact .member hm h

@[simp] theorem floatFree_list : (list items).FloatFree ↔ ∀ v ∈ items, v.FloatFree := by
  simp only [FloatFree, within_list_iff, reduceCtorEq, false_or, not_exists, not_and]
  exact ⟨fun h v hv x => h x v hv, fun h x v hv => h v hv x⟩

@[simp] theorem floatFree_object : (object ms).FloatFree ↔ ∀ m ∈ ms, m.2.FloatFree := by
  simp only [FloatFree, within_object_iff, reduceCtorEq, false_or, not_exists, not_and]
  exact ⟨fun h m hm x => h x m hm, fun h x m hm => h m hm x⟩

@[simp] theorem floatFree_bool (b : Bool) : (bool b).FloatFree := fun _ h => nomatch h

@[simp] theorem floatFree_integer (n : Int64) : (integer n).FloatFree := fun _ h => nomatch h

@[simp] theorem floatFree_string (s : String) : (string s).FloatFree := fun _ h => nomatch h

@[simp] theorem not_floatFree_float (x : Float) : ¬ (float x).FloatFree :=
  fun h => h x .self

@[simp] theorem distinctKeys_list :
    (list items).DistinctKeys ↔ ∀ v ∈ items, v.DistinctKeys := by
  simp only [DistinctKeys, within_list_iff, reduceCtorEq, false_or]
  exact ⟨fun h v hv ms hms => h ms ⟨v, hv, hms⟩, fun h ms ⟨v, hv, hms⟩ => h v hv ms hms⟩

@[simp] theorem distinctKeys_object :
    (object ms).DistinctKeys ↔ (ms.map Prod.fst).Nodup ∧ ∀ m ∈ ms, m.2.DistinctKeys := by
  simp only [DistinctKeys, within_object_iff, object.injEq]
  constructor
  · intro h
    exact ⟨h ms (.inl rfl), fun m hm ms' hms' => h ms' (.inr ⟨m, hm, hms'⟩)⟩
  · intro h ms' hms'
    rcases hms' with rfl | ⟨m, hm, hms'⟩
    · exact h.1
    · exact h.2 m hm ms' hms'

mutual

/-- How deep lists and objects lie in one another. -/
def depth : Value → ℕ
  | .list items => depthItems items + 1
  | .object ms => depthMembers ms + 1
  | _ => 0
termination_by structural v => v

def depthItems : List Value → ℕ
  | [] => 0
  | v :: vs => max v.depth (depthItems vs)
termination_by structural vs => vs

def depthMembers : List (String × Value) → ℕ
  | [] => 0
  | (_, v) :: ms => max v.depth (depthMembers ms)
termination_by structural ms => ms

end

theorem depth_list_le {n : ℕ} : (list items).depth ≤ n ↔ 0 < n ∧ ∀ v ∈ items, v.depth < n := by
  have hitems : depthItems items < n ↔ 0 < n ∧ ∀ v ∈ items, v.depth < n := by
    induction items with
    | nil => simp [depthItems]
    | cons v vs ih =>
      rw [depthItems, Nat.max_lt, ih, List.forall_mem_cons]
      exact and_left_comm
  exact hitems

theorem depth_object_le {n : ℕ} : (object ms).depth ≤ n ↔ 0 < n ∧ ∀ m ∈ ms, m.2.depth < n := by
  have hmembers : depthMembers ms < n ↔ 0 < n ∧ ∀ m ∈ ms, m.2.depth < n := by
    induction ms with
    | nil => simp [depthMembers]
    | cons m ms ih =>
      rw [depthMembers, Nat.max_lt, ih, List.forall_mem_cons]
      exact and_left_comm
  exact hmembers

end BibTemplate.Value
