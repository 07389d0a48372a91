import BibTemplate.Preview
import BibTemplate.Proofs.Cache.Holding
import BibTemplate.Proofs.Cache.Refinement
import BibTemplate.Proofs.Outcomes

/-!
# Rendering through a cache with a history

Whatever has been asked of a cache before, it holds for each text the template of that text.
So what it answers does not depend on its history, and neither does what a preview answers.
-/
namespace BibTemplate

namespace Cache

variable {c d : Cache}

theorem Fresh.sound {capacity : Option ℕ} (h : Fresh capacity c) : c.store.Sound := by
  cases h with
  | unbounded => refine ⟨?_, ?_, ?_, ?_⟩ <;> simp [Cache.unbounded, Store.unbounded]
  | bounded n => refine ⟨?_, ?_, ?_, ?_⟩ <;> simp [Cache.bounded, Store.bounded, Store.size]

theorem Reordered.sound (hd : c.Reordered d) (h : c.store.Sound) : d.store.Sound := by
  obtain ⟨es, hp, rfl⟩ := hd
  exact h.reorder hp

theorem fetch_sound (h : c.store.Sound) (source : String) :
    (c.fetch source).2.store.Sound ∧
      (c.fetch source).1.map Instance.template = Template.parse source := by
  rw [fetch, Store.lookup_eq]
  have hlookup := h.lookup source
  rw [Store.lookup_eq] at hlookup
  cases hfind : c.store.find? source with
  | some i => exact ⟨hlookup, (h.parse_of_find? hfind).symm⟩
  | none =>
    cases hparse : Template.parse source with
    | error e => exact ⟨hlookup, rfl⟩
    | ok t =>
      have hinsert := hlookup.insert (i := ⟨c.readings, t⟩) hparse
      have hheld := hinsert.parse_of_find? (Store.find?_insert_self _ source ⟨c.readings, t⟩)
      exact ⟨hinsert, hheld.symm.trans hparse⟩

theorem render_eq (h : c.store.Sound) (source : String) (context : Value)
    (options : RenderOptions) :
    (c.render source context options).1 = BibTemplate.render source context options := by
  rw [BibTemplate.render, ← (fetch_sound h source).2, Cache.render]
  cases c.fetch source with
  | mk result d => cases result <;> rfl

theorem perform_sound (h : c.store.Sound) (r : Request) : (c.perform r).2.store.Sound := by
  cases r with
  | fetch source => exact (fetch_sound h source).1
  | render source context options => exact (fetch_sound h source).1
  | clear => exact h.clear

theorem Run.sound {history : List (Request × Response)} (hrun : Run c history d)
    (h : c.store.Sound) : d.store.Sound := by
  induction hrun with
  | done hd => exact hd.sound h
  | call hd _ ih => exact ih (perform_sound (hd.sound h) _)

end Cache

namespace Preview

/-- A preview after any calls, with the entries of its cache in any order. -/
inductive Reached : Preview → Prop
  | start : Reached .start
  | render {p : Preview} (source context : String) (options : RenderOptions) :
      Reached p → Reached (p.render source context options).2
  | validate {p : Preview} (source : String) : Reached p → Reached (p.validate source).2
  | reorder {p : Preview} {c : Cache} : Reached p → p.cache.Reordered c → Reached ⟨c⟩

theorem cache_render (p : Preview) (source context : String) (options : RenderOptions) :
    (p.render source context options).2.cache = (p.cache.fetch source).2 := by
  rw [render]
  cases p.cache.fetch source with
  | mk result c =>
    cases result with
    | error e => rfl
    | ok i => cases Json.read context <;> rfl

theorem Reached.sound {p : Preview} (h : Reached p) : p.cache.store.Sound := by
  induction h with
  | start => exact (Cache.Fresh.bounded 64).sound
  | render source context options _ ih =>
    rw [cache_render]
    exact (Cache.fetch_sound ih source).1
  | validate source _ ih => exact (Cache.fetch_sound ih source).1
  | reorder _ hc ih => exact hc.sound ih

theorem render_eq {p : Preview} (h : p.cache.store.Sound) (source context : String)
    (options : RenderOptions) :
    (p.render source context options).1 = renderJson source context options := by
  rw [renderJson, ← (Cache.fetch_sound h source).2, render]
  cases p.cache.fetch source with
  | mk result c =>
    cases result with
    | error e => rfl
    | ok i => cases Json.read context <;> rfl

end Preview

end BibTemplate
