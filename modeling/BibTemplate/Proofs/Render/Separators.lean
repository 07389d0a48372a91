import BibTemplate.Proofs.Render.Clauses
import BibTemplate.Proofs.Render.Resolution

/-!
# Separators between the elements of a list

A body that ends with a separator except in the last round, or begins with one except in
the first, shows its texts with the separator between them. Whether a round is the first or
the last is asked in the scope of the element, where the loop names come before the keys of
the element and no section of the body is open any more.
-/
namespace BibTemplate

variable {s : Scopes} {path : String} {items : List Value}

/-- What a body shows in the rounds over a list, each in the scope of its element. -/
def Walk.rounds (w : Walk) (body : List Node) (items : List Value) : List String :=
  items.zipIdx.map fun item =>
    (Node.walkAll body ⟨w.scopes.pushItem item.1 ⟨item.2, items.length⟩, ""⟩).output

theorem Walk.rounds_eq (w : Walk) (body : List Node) (items : List Value) :
    w.rounds body items = items.zipIdx.map fun item =>
      Node.evalAll body (w.scopes.pushItem item.1 ⟨item.2, items.length⟩) := by
  simp only [rounds, Node.walkAll_eq, String.empty_append]

theorem intercalate_cons_eq_join (sep x : String) (xs : List String) :
    sep.intercalate (x :: xs) = x ++ .join (xs.map (sep ++ ·)) := by
  induction xs generalizing x with
  | nil => simp
  | cons y ys ih =>
    rw [String.intercalate_cons_cons, ih, List.map_cons, String.join_cons]
    simp only [String.append_assoc]

/-- Separators behind all texts but the one at the last of `n` places. -/
theorem join_behind {α : Type} (text : α × ℕ → String) (sep : String) {n : ℕ} (xs : List α)
    (k : ℕ) (hn : k + xs.length = n) :
    .join ((xs.zipIdx k).map fun x => text x ++ if x.2 + 1 = n then "" else sep) =
      sep.intercalate ((xs.zipIdx k).map text) := by
  induction xs generalizing k with
  | nil => simp
  | cons x xs ih =>
    rw [List.length_cons] at hn
    rw [List.zipIdx_cons, List.map_cons, List.map_cons, String.join_cons, ih (k + 1) (by omega)]
    cases xs with
    | nil =>
      have hlast : k + 1 = n := by simpa using hn
      simp [hlast]
    | cons y ys =>
      have hnot : k + 1 ≠ n := by
        rw [List.length_cons] at hn
        omega
      rw [if_neg hnot, String.intercalate_cons_of_ne_nil (by simp)]

/-- Separators in front of all texts but the one at the first place. -/
theorem join_before {α : Type} (text : α × ℕ → String) (sep : String) (xs : List α) :
    .join (xs.zipIdx.map fun x => (if x.2 = 0 then "" else sep) ++ text x) =
      sep.intercalate (xs.zipIdx.map text) := by
  cases xs with
  | nil => rfl
  | cons x xs =>
    have hothers : ∀ y ∈ xs.zipIdx 1,
        (if y.2 = 0 then "" else sep) ++ text y = sep ++ text y := by
      intro y hy
      have hpos := List.le_snd_of_mem_zipIdx hy
      rw [if_neg (by omega)]
    rw [List.zipIdx_cons, List.map_cons, List.map_cons, String.join_cons,
      intercalate_cons_eq_join, List.map_map, List.map_congr_left hothers]
    simp [Function.comp_def]

theorem Node.eval_unless_last (s : Scopes) (v : Value) (position : LoopPosition) (sep : String) :
    (block "@last" true [.literal sep]).eval (s.pushItem v position) =
      if position.index + 1 = position.length then "" else sep := by
  have hlast : (s.pushItem v position).resolve? "@last" =
      some (.bool (position.index + 1 == position.length)) :=
    s.resolve?_pushItem_of_binding? v (by decide) rfl
  rw [eval, Scopes.truthyAt, hlast, denotation_evalAll.literal]
  simp [Value.truthy]

theorem Node.eval_unless_first (s : Scopes) (v : Value) (position : LoopPosition) (sep : String) :
    (block "@first" true [.literal sep]).eval (s.pushItem v position) =
      if position.index = 0 then "" else sep := by
  have hfirst : (s.pushItem v position).resolve? "@first" =
      some (.bool (position.index == 0)) :=
    s.resolve?_pushItem_of_binding? v (by decide) rfl
  rw [eval, Scopes.truthyAt, hfirst, denotation_evalAll.literal]
  simp [Value.truthy]

theorem Node.walkAll_separator_behind (w : Walk)
    (h : w.scopes.resolve? path = some (.list items)) (body : List Node) (sep : String) :
    walkAll [.block path false (body ++ [.block "@last" true [.literal sep]])] w =
      w.emit (sep.intercalate (w.rounds body items)) := by
  rw [walkAll_eq, denotation_evalAll.list _ h, Walk.emit, Walk.rounds_eq,
    ← join_behind _ sep items 0 (Nat.zero_add _)]
  simp only [evalAll_append, evalAll_singleton, eval_unless_last]

theorem Node.walkAll_separator_before (w : Walk)
    (h : w.scopes.resolve? path = some (.list items)) (body : List Node) (sep : String) :
    walkAll [.block path false (.block "@first" true [.literal sep] :: body)] w =
      w.emit (sep.intercalate (w.rounds body items)) := by
  rw [walkAll_eq, denotation_evalAll.list _ h, Walk.emit, Walk.rounds_eq, ← join_before]
  simp only [evalAll, eval_unless_first]

/-- A body that shows nothing but the current value shows each element in its round. -/
theorem Walk.rounds_eq_map {body : List Node} {text : Value → String}
    (h : ∀ s : Scopes, Node.evalAll body s = text s.current) (w : Walk) (items : List Value) :
    w.rounds body items = items.map text := by
  rw [rounds_eq]
  simp only [h, Scopes.current_pushItem]
  rw [← Function.comp_def text Prod.fst, ← List.map_map, List.zipIdx_map_fst]

/-- The elements themselves, with nothing else in the body. -/
theorem Walk.rounds_current (w : Walk) (items : List Value) :
    w.rounds [.placeholder "." []] items = items.map Value.text :=
  rounds_eq_map (fun s => Node.denotation_evalAll.present [] s.resolve?_current) w items

theorem Node.walkAll_placeholder_list (w : Walk)
    (h : w.scopes.resolve? path = some (.list items)) :
    walkAll [.placeholder path []] w = w.emit (",".intercalate (items.map Value.text)) := by
  rw [walkAll_eq, denotation_evalAll.present [] h, Filter.applyAll_nil, Value.text,
    Value.texts_eq_map, Walk.emit]

/-- A separator behind each element unless it is the last, or in front of it unless it is the
first, stands between the elements and nowhere else; with commas between the elements
themselves the section shows what a placeholder for the list shows. -/
theorem Node.walkAll_separated (w : Walk) (h : w.scopes.resolve? path = some (.list items)) :
    (∀ (body : List Node) (sep : String),
      walkAll [.block path false (body ++ [.block "@last" true [.literal sep]])] w =
        w.emit (sep.intercalate (w.rounds body items)) ∧
      walkAll [.block path false (.block "@first" true [.literal sep] :: body)] w =
        w.emit (sep.intercalate (w.rounds body items))) ∧
    walkAll [.block path false [.placeholder "." [], .block "@last" true [.literal ","]]] w =
      walkAll [.placeholder path []] w ∧
    walkAll [.block path false [.block "@first" true [.literal ","], .placeholder "." []]] w =
      walkAll [.placeholder path []] w := by
  refine ⟨?_, ?_, ?_⟩
  · intro body sep
    exact ⟨walkAll_separator_behind w h body sep, walkAll_separator_before w h body sep⟩
  · have hjoined := walkAll_separator_behind w h [.placeholder "." []] ","
    rw [walkAll_placeholder_list w h, ← Walk.rounds_current w items, ← hjoined]
    rfl
  · rw [walkAll_separator_before w h, walkAll_placeholder_list w h, Walk.rounds_current]

/-- Objects that have a key `@last`, with a loop inside the loop. -/
theorem Node.walkAll_separated_nested :
    let first : Value := .object [("@last", .bool true), ("tags", .list [.string "a", .string "b"])]
    let second : Value := .object [("@last", .bool true), ("tags", .list [.string "c"])]
    let w : Walk := ⟨.ofRoot (.object [("rows", .list [first, second])]), "["⟩
    let body : List Node :=
      [.block "tags" false [.placeholder "." [], .block "@last" true [.literal "+"]]]
    (walkAll [.block "rows" false (body ++ [.block "@last" true [.literal "; "]])] w).output =
      "[a+b; c" := by
  intro first second w body
  have hlist : w.scopes.resolve? "rows" = some (.list [first, second]) := rfl
  have hrounds : w.rounds body [first, second] = ["a+b", "c"] := rfl
  rw [((walkAll_separated w hlist).1 body "; ").1, hrounds]
  rfl

end BibTemplate
