import TemplateExpressions.Proofs.Context.Stack
import TemplateExpressions.Proofs.Session.Effect

/-!
# Balanced runs

A list of operations is balanced for a context if it closes every scope of the context that it opens
and no other. A balanced run keeps every view of the context that is a stack (`Balanced.view_eq`).
Main statement: what happens between the opening of a scope and its closing leaves the registry of
active cursors as it was (`registry_restored`).
-/

set_option autoImplicit false

namespace TemplateExpressions

/-- An operation that neither opens nor closes a scope of a context, nor lets go of the context. -/
def Operation.LeavesScopes (id : ContextId) (o : Operation) : Prop :=
  o ≠ .beginScope id ∧ o ≠ .endScope id ∧ o ≠ .drop id

/-- Operations that close every scope of a context that they open and no other. -/
inductive Balanced (id : ContextId) : List Operation → Prop
  | nil : Balanced id []
  | cons {o : Operation} {ops : List Operation} :
      o.LeavesScopes id → Balanced id ops → Balanced id (o :: ops)
  | scope {inner ops : List Operation} : Balanced id inner → Balanced id ops →
      Balanced id (.beginScope id :: inner ++ .endScope id :: ops)

/-- Operations in a scope of their own. -/
def enclosed (id : ContextId) (ops : List Operation) : List Operation :=
  .beginScope id :: ops ++ [.endScope id]

theorem Balanced.enclosed {id : ContextId} {ops : List Operation} (h : Balanced id ops) :
    Balanced id (enclosed id ops) := .scope h .nil

namespace Operation

variable {id : ContextId} {s : Session} {o : Operation}

theorem change_beginScope (s : Session) (id : ContextId) :
    (beginScope id).change s id = .opened := if_pos rfl

theorem change_endScope (s : Session) (id : ContextId) :
    (endScope id).change s id = .closed := if_pos rfl

/-- Only the operations made for it open and close scopes. -/
theorem LeavesScopes.change_ne (h : o.LeavesScopes id) :
    o.change s id ≠ .opened ∧ o.change s id ≠ .closed := by
  obtain ⟨hbegin, hend, -⟩ := h
  cases o with
  | beginScope i =>
    have hi : i ≠ id := fun e => hbegin (by rw [e])
    simp [change, hi]
  | endScope i =>
    have hi : i ≠ id := fun e => hend (by rw [e])
    simp [change, hi]
  | _ =>
    dsimp only [change]
    repeat' split
    all_goals simp

/-- Only the operation made for it binds a name globally. -/
theorem change_ne_boundGlobal {name : Text} (h : ∀ value, o ≠ .setGlobal id name value)
    (value : Value) : o.change s id ≠ .boundGlobal name value := by
  cases o with
  | setGlobal i other v =>
    intro hc
    simp only [change] at hc
    split at hc
    · rename_i hi
      cases hc
      exact h value (by rw [hi])
    · cases hc
  | _ =>
    dsimp only [change]
    repeat' split
    all_goals simp

end Operation

namespace Session

variable {s s' : Session} {id : ContextId} {c : Context}

theorem apply_beginScope {t : Session} (hc : s.world.context? id = some c)
    (h : s.apply (.beginScope id) = some t) : t.world.context? id = some (c.after .opened) := by
  have ht := context?_apply h hc (by simp)
  rwa [Operation.change_beginScope] at ht

theorem apply_endScope {t : Session} (hc : s.world.context? id = some c)
    (h : s.apply (.endScope id) = some t) : t.world.context? id = some (c.after .closed) := by
  have ht := context?_apply h hc (by simp)
  rwa [Operation.change_endScope] at ht

end Session

namespace Balanced

open Session

variable {s s' : Session} {id : ContextId} {c : Context} {ops : List Operation}

/-- A balanced run keeps every stack of the context. -/
theorem view_eq {β : Type} {allowed : Change → Prop} {view : Context → List β}
    (hops : Balanced id ops) (hview : Context.IsStack allowed view)
    (hallowed : ∀ o ∈ ops, ∀ s, allowed (Operation.change s id o))
    (hc : s.world.context? id = some c) (hrun : s.run ops = some s') :
    ∃ c', s'.world.context? id = some c' ∧ view c' = view c := by
  induction hops generalizing s s' c with
  | nil =>
    cases hrun
    exact ⟨c, hc, rfl⟩
  | @cons o ops ho _ ih =>
    obtain ⟨t, ht, hr⟩ := run_cons hrun
    have hct := context?_apply ht hc ho.2.2
    obtain ⟨c', hc', hv⟩ :=
      ih (fun p hp => hallowed p (List.mem_cons_of_mem o hp)) hct hr
    obtain ⟨hopened, hclosed⟩ := ho.change_ne (s := s)
    have hstep := hview.others c _ (hallowed o List.mem_cons_self s) hopened hclosed
    exact ⟨c', hc', hv.trans hstep⟩
  | @scope inner ops _ _ ih₁ ih₂ =>
    obtain ⟨t₁, ht₁, hr₁⟩ := run_cons hrun
    obtain ⟨t₂, ht₂, hr₂⟩ := run_append hr₁
    obtain ⟨t₃, ht₃, hr₃⟩ := run_cons hr₂
    -- the scope pushes, what is inside keeps the stack, and the end pops
    obtain ⟨top, hpush⟩ := hview.opened c
    obtain ⟨c₂, hc₂, hv₂⟩ := ih₁ (fun p hp => hallowed p (by simp [hp]))
      (apply_beginScope hc ht₁) ht₂
    have hpop : view (c₂.after .closed) = view c := by
      rw [hview.closed, hv₂, hpush, List.tail_cons]
    obtain ⟨c', hc', hv⟩ := ih₂ (fun p hp => hallowed p (by simp [hp]))
      (apply_endScope hc₂ ht₃) hr₃
    exact ⟨c', hc', hv.trans hpop⟩

/-- What the closing of a scope gives back is what was there when it was opened. -/
theorem enclosed_run (hops : Balanced id ops) (hc : s.world.context? id = some c)
    (hrun : s.run (TemplateExpressions.enclosed id ops) = some s') :
    ∃ c', s'.world.context? id = some c' ∧ c'.registry = c.registry ∧
      c'.unwound = c.unwound := by
  obtain ⟨t₁, ht₁, hr₁⟩ := run_cons hrun
  obtain ⟨t₂, ht₂, hr₂⟩ := run_append hr₁
  obtain ⟨t₃, ht₃, hr₃⟩ := run_cons hr₂
  cases hr₃
  obtain ⟨c₂, hc₂, hv₂⟩ := hops.view_eq Context.isStack_unwound (fun _ _ _ => trivial)
    (apply_beginScope hc ht₁) ht₂
  rw [Context.unwound_after_opened] at hv₂
  refine ⟨_, apply_endScope hc₂ ht₃, ?_, ?_⟩
  · rw [Context.registry_after_closed, hv₂]
    rfl
  · rw [Context.unwound_after_closed, hv₂]
    rfl

end Balanced

/-- Whatever is done between the opening of a scope and its closing, the registry is afterwards what
it was before, with the same names in the same order and the same cursors under them; and as many
scopes are open. -/
theorem registry_restored {s s' : Session} {id : ContextId} {c : Context} {ops : List Operation}
    (hc : s.world.context? id = some c) (hops : Balanced id ops)
    (hrun : s.run (.beginScope id :: ops ++ [.endScope id]) = some s') :
    ∃ c', s'.world.context? id = some c' ∧ c'.registry = c.registry ∧
      c'.scopes.depth = c.scopes.depth := by
  obtain ⟨c', hc', hregistry, hunwound⟩ := hops.enclosed_run hc hrun
  refine ⟨c', hc', hregistry, ?_⟩
  rw [← Context.length_unwound, hunwound, Context.length_unwound]

/-- Repeats in a scope that follow one another, fail, have nothing to walk or sit in a scope of their
own. -/
def busyScope : List Operation :=
  [.setRepeat 0 ['x'] (.text ['l']), .setRepeat 0 ['y'] (.text ['l']), .advance 1,
   .setRepeat 0 ['z'] (.text ['u']), .setRepeat 0 ['z'] (.text "nothing".toList)] ++
    (.beginScope 0 :: [.setRepeat 0 ['x'] (.text ['l'])] ++ .endScope 0 ::
      [.setRepeat 0 ['x'] (.text ['l'])])

theorem balanced_busyScope : Balanced 0 busyScope := by
  have hlast : Balanced 0 [.setRepeat 0 ['x'] (.text ['l'])] :=
    .cons ⟨by simp, by simp, by simp⟩ .nil
  refine .cons ⟨by simp, by simp, by simp⟩ (.cons ⟨by simp, by simp, by simp⟩ ?_)
  refine .cons ⟨by simp, by simp, by simp⟩ (.cons ⟨by simp, by simp, by simp⟩ ?_)
  exact .cons ⟨by simp, by simp, by simp⟩ (.scope hlast hlast)

/-- Two repeats in one scope. -/
def twoRepeats : Session :=
  ((Session.ofRoots [(['l'], .list [.int 1, .int 2])]).run
    [.beginScope 0, .setRepeat 0 ['w'] (.text ['l']), .setRepeat 0 ['x'] (.text ['l'])]).getD
      (Session.ofRoots [])

theorem registry_after_busyScope :
    ∃ s' c', twoRepeats.run (.beginScope 0 :: busyScope ++ [.endScope 0]) = some s' ∧
      s'.world.context? 0 = some c' ∧ c'.registry = [(['w'], 0), (['x'], 1)] ∧
      c'.scopes.depth = 1 := by
  have hends : (twoRepeats.run (.beginScope 0 :: busyScope ++ [.endScope 0])).isSome = true := by
    decide +kernel
  have hthere : (twoRepeats.world.context? 0).isSome = true := by decide +kernel
  have hbefore : (twoRepeats.world.context? 0).map (fun c => (c.registry, c.scopes.depth)) =
      some ([(['w'], 0), (['x'], 1)], 1) := by decide +kernel
  obtain ⟨s', hs'⟩ := Option.isSome_iff_exists.1 hends
  obtain ⟨c, hc⟩ := Option.isSome_iff_exists.1 hthere
  obtain ⟨c', hc', hregistry, hdepth⟩ := registry_restored hc balanced_busyScope hs'
  rw [hc, Option.map_some, Option.some.injEq, Prod.mk.injEq] at hbefore
  exact ⟨s', c', hs', hc', hregistry.trans hbefore.1, hdepth.trans hbefore.2⟩

end TemplateExpressions
