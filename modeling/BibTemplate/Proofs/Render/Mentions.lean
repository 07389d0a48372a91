import BibTemplate.Proofs.Render.Denotation
import BibTemplate.Proofs.Render.Resolution

/-!
# What a template does not mention

A template takes from the value that it is rendered against only what the first segments of
its paths lead to. Inside sections the same holds: whatever a section enters has been found
through such a segment, and a path that no inner scope knows falls back on the root. The
path of the current value alone would show a root as a whole.
-/
namespace BibTemplate

mutual

/-- The paths that a node looks up. -/
def Node.paths : Node → List String
  | .literal _ => []
  | .placeholder path _ => [path]
  | .block path _ body => path :: Node.allPaths body
termination_by structural n => n

def Node.allPaths : List Node → List String
  | [] => []
  | n :: ns => n.paths ++ Node.allPaths ns
termination_by structural ns => ns

end

/-- The same scopes around two roots that answer the first segments of the paths alike. -/
structure Scopes.AlikeFor (paths : List String) (s t : Scopes) : Prop where
  inner : s.inner = t.inner
  root : ∀ path ∈ paths, s.root.step? (firstSegment path) = t.root.step? (firstSegment path)
  current : "." ∉ paths

namespace Scopes.AlikeFor

variable {paths others : List String} {s t : Scopes} {path : String}

theorem mono (h : s.AlikeFor paths t) (hsub : others ⊆ paths) : s.AlikeFor others t :=
  ⟨h.inner, fun path hp => h.root path (hsub hp), fun hp => h.current (hsub hp)⟩

theorem push (h : s.AlikeFor paths t) (v : Value) : (s.push v).AlikeFor paths (t.push v) :=
  ⟨congrArg (List.cons _) h.inner, h.root, h.current⟩

theorem pushItem (h : s.AlikeFor paths t) (v : Value) (p : LoopPosition) :
    (s.pushItem v p).AlikeFor paths (t.pushItem v p) :=
  ⟨congrArg (List.cons _) h.inner, h.root, h.current⟩

theorem resolve?_eq (h : s.AlikeFor paths t) (hp : path ∈ paths) :
    s.resolve? path = t.resolve? path := by
  have hne : path ≠ "." := fun he => h.current (he ▸ hp)
  have hlookup : s.lookup? (firstSegment path) = t.lookup? (firstSegment path) := by
    simp [lookup?, toList, Scope.lookup?, h.inner, h.root path hp, List.findSome?_append]
  rw [s.resolve?_eq hne, t.resolve?_eq hne, hlookup]

end Scopes.AlikeFor

mutual

theorem Node.eval_eq_of_alikeFor {s t : Scopes} :
    (n : Node) → s.AlikeFor n.paths t → n.eval s = n.eval t
  | .literal text, _ => rfl
  | .placeholder path filters, h => by
    have hpath : s.resolve? path = t.resolve? path := h.resolve?_eq (List.mem_singleton_self path)
    rw [eval, eval, Scopes.textAt, Scopes.textAt, hpath]
  | .block path false body, h => by
    have hpath : s.resolve? path = t.resolve? path := h.resolve?_eq List.mem_cons_self
    have hbody : s.AlikeFor (allPaths body) t := h.mono (List.subset_cons_self _ _)
    rw [eval, eval, hpath]
    cases t.resolve? path with
    | none => rfl
    | some v =>
      cases v with
      | list items =>
        have hitems : ∀ item : Value × ℕ,
            evalAll body (s.pushItem item.1 ⟨item.2, items.length⟩) =
              evalAll body (t.pushItem item.1 ⟨item.2, items.length⟩) := fun item =>
          evalAll_eq_of_alikeFor body (hbody.pushItem _ _)
        simp only [hitems]
      | object ms => simp only [evalAll_eq_of_alikeFor body (hbody.push _)]
      | _ => simp only [evalAll_eq_of_alikeFor body hbody]
  | .block path true body, h => by
    have hpath : s.resolve? path = t.resolve? path := h.resolve?_eq List.mem_cons_self
    have hbody : s.AlikeFor (allPaths body) t := h.mono (List.subset_cons_self _ _)
    rw [eval, eval, Scopes.truthyAt, Scopes.truthyAt, hpath, evalAll_eq_of_alikeFor body hbody]

theorem Node.evalAll_eq_of_alikeFor {s t : Scopes} :
    (ns : List Node) → s.AlikeFor (Node.allPaths ns) t → Node.evalAll ns s = Node.evalAll ns t
  | [], _ => rfl
  | n :: ns, h => by
    have hn : s.AlikeFor n.paths t := h.mono (List.subset_append_left _ _)
    have hns : s.AlikeFor (allPaths ns) t := h.mono (List.subset_append_right _ _)
    rw [evalAll, evalAll, eval_eq_of_alikeFor n hn, evalAll_eq_of_alikeFor ns hns]

end

/-- Two values that answer the first segments of a template's paths alike give the same text,
unless the template shows the current value. -/
theorem Template.render_eq_of_alike (t : Template) {a b : Value}
    (hcurrent : "." ∉ Node.allPaths t.nodes)
    (h : ∀ path ∈ Node.allPaths t.nodes, a.step? (firstSegment path) = b.step? (firstSegment path))
    (options : RenderOptions) : t.render a options = t.render b options := by
  have halike : (Scopes.ofRoot a).AlikeFor (Node.allPaths t.nodes) (.ofRoot b) :=
    ⟨rfl, h, hcurrent⟩
  rw [render_eq, render_eq, Node.evalAll_eq_of_alikeFor _ halike]

/-- A loop whose body falls back on the root, against roots that differ in what is not
mentioned and in the order of their members. -/
theorem render_eq_of_alike_fallback :
    let t : Template := ⟨[.block "authors" false [.placeholder "family" [.lowercase],
      .placeholder "issued.year" []], .block "doi" true [.literal "!"]]⟩
    let authors : Value := .list [.object [("family", .string "Smith")]]
    let issued : Value := .object [("year", .integer 1965)]
    let a : Value := .object [("authors", authors), ("note", .string "secret"), ("issued", issued)]
    let b : Value := .object [("issued", issued), ("authors", authors), ("note", .null)]
    "." ∉ Node.allPaths t.nodes ∧
      (∀ path ∈ Node.allPaths t.nodes, a.step? (firstSegment path) = b.step? (firstSegment path)) ∧
      t.render a .forCitekey = t.render b .forCitekey := by
  intro t authors issued a b
  have hpaths : Node.allPaths t.nodes = ["authors", "family", "issued.year", "doi"] := rfl
  have hcurrent : "." ∉ Node.allPaths t.nodes := by
    rw [hpaths]
    decide
  have halike : ∀ path ∈ Node.allPaths t.nodes,
      a.step? (firstSegment path) = b.step? (firstSegment path) := by
    rw [hpaths]
    simp only [List.forall_mem_cons, List.not_mem_nil, false_imp_iff, implies_true, and_true]
    exact ⟨rfl, rfl, rfl, rfl⟩
  exact ⟨hcurrent, halike, t.render_eq_of_alike hcurrent halike .forCitekey⟩

end BibTemplate
