import BibTemplate.Render.Basic
import BibTemplate.Render.Eval
import Mathlib.Data.Nat.Notation

/-!
# Walking gives what a template means

A walk carries one stack of scopes and one output through the whole template. Whatever
they are when it comes to a node, it adds the text of the node to the output and leaves
the scopes as it found them. So the text of a row of nodes is made of their texts.
-/
namespace BibTemplate

/-- A loop in which each round adds a text that depends on the scopes alone. -/
theorem Walk.foldl_eq {α : Type} {f : Walk → α → Walk} {g : Scopes → α → String}
    (h : ∀ w x, f w x = ⟨w.scopes, w.output ++ g w.scopes x⟩) (xs : List α) (w : Walk) :
    xs.foldl f w = ⟨w.scopes, w.output ++ .join (xs.map (g w.scopes))⟩ := by
  induction xs generalizing w with
  | nil => simp [String.join]
  | cons x xs ih =>
    rw [List.foldl_cons, h, ih, List.map_cons, String.join_cons, String.append_assoc]

mutual

theorem Node.walk_eq (w : Walk) :
    (n : Node) → n.walk w = ⟨w.scopes, w.output ++ n.eval w.scopes⟩
  | .literal text => rfl
  | .placeholder path filters => rfl
  | .block path false body => by
    rw [walk, eval]
    cases hv : w.scopes.resolve? path with
    | none => simp
    | some v =>
      dsimp only
      split
      · cases v with
        | list items =>
          have hround : ∀ (w : Walk) (item : Value × ℕ),
              (walkAll body (w.enterItem item.1 ⟨item.2, items.length⟩)).leave =
                ⟨w.scopes, w.output ++
                  evalAll body (w.scopes.pushItem item.1 ⟨item.2, items.length⟩)⟩ := by
            intro w item
            rw [walkAll_eq _ body]
            rfl
          exact Walk.foldl_eq
            (g := fun s item => evalAll body (s.pushItem item.1 ⟨item.2, items.length⟩))
            hround items.zipIdx w
        | object ms =>
          dsimp only
          rw [walkAll_eq _ body]
          rfl
        | _ => exact walkAll_eq w body
      · simp
  | .block path true body => by
    rw [walk, eval]
    split
    · simp
    · exact walkAll_eq w body

theorem Node.walkAll_eq (w : Walk) :
    (ns : List Node) → Node.walkAll ns w = ⟨w.scopes, w.output ++ Node.evalAll ns w.scopes⟩
  | [] => by simp [walkAll, evalAll]
  | n :: ns => by
    rw [walkAll, evalAll, walk_eq w n, walkAll_eq _ ns, String.append_assoc]

end

theorem Node.evalAll_append (ns ms : List Node) (s : Scopes) :
    Node.evalAll (ns ++ ms) s = Node.evalAll ns s ++ Node.evalAll ms s := by
  induction ns with
  | nil => simp [evalAll]
  | cons n ns ih => rw [List.cons_append, evalAll, evalAll, ih, String.append_assoc]

theorem Template.render_eq (t : Template) (context : Value) (options : RenderOptions) :
    t.render context options = options.finish (Node.evalAll t.nodes (.ofRoot context)) := by
  simp [render, Node.walkAll_eq]

theorem RenderOptions.finish_append (o : RenderOptions) (s t : String) :
    o.finish (s ++ t) = o.finish s ++ o.finish t := by
  unfold finish
  split
  · rw [String.toList_append, List.filter_append, String.ofList_append]
  · rfl

end BibTemplate
