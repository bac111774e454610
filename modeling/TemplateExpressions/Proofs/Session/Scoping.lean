import TemplateExpressions.Proofs.Context.Ledger
import TemplateExpressions.Proofs.Session.Effect

/-!
# Variables in the course of a run

The value of a variable after a run of a driver is that of the last visible write
(`variables_are_last_visible_writes`), whatever scopes were opened and closed on the way.
-/

set_option autoImplicit false

namespace TemplateExpressions.Session

variable {s s' : Session} {id : ContextId} {c : Context}

/-- The ledger of a context after a run that it enters without entries. -/
def ledger (s : Session) (id : ContextId) (ops : List Operation) : Ledger :=
  (s.changes id ops).foldl Ledger.follow .blank

/-- After any run on a context that began with a root frame, a variable has the value of the last
write that is visible: a global one, or a local one whose scope is open still. There is one frame
more than there are undo lists, as many of these as scopes are open; and exactly if none is open
the innermost one cannot be closed, which then changes nothing. -/
theorem variables_are_last_visible_writes {root : Mapping Value} {ops : List Operation}
    (hc : s.world.context? id = some c) (hroot : c.scopes = .ofRoot root)
    (hdrop : .drop id ∉ ops) (hrun : s.run ops = some s') :
    (∀ name, s'.get? id name = (s.ledger id ops).lastVisible? root name) ∧
      (∃ c', s'.world.context? id = some c' ∧
        c'.scopes.frames.length = c'.scopes.undoLists.length + 1 ∧
        c'.scopes.undoLists.length = (s.ledger id ops).opened.length) ∧
      (s'.endScope id = .error .noOpenScope ↔ (s.ledger id ops).opened = []) ∧
      ((s.ledger id ops).opened = [] → s'.apply (.endScope id) = some s') := by
  have hc' := context?_run hrun hc hdrop
  have hblank : Ledger.blank.Fits root c.scopes := hroot ▸ Ledger.Fits.blank_ofRoot root
  have hfits := hblank.foldl (s.changes id ops)
  have hdepth := hfits.depth_eq
  have hend : s'.endScope id = .error .noOpenScope ↔ (s.ledger id ops).opened = [] := by
    rw [endScope_eq_error_iff hc', hdepth, List.length_eq_zero_iff]
    rfl
  refine ⟨fun name => (get?_eq hc' name).trans (hfits.get?_eq name), ⟨_, hc', ?_, ?_⟩, hend, ?_⟩
  · exact Scopes.length_frames _
  · exact (Scopes.length_undoLists _).trans hdepth
  · intro hnone
    simp [apply, hend.2 hnone, Except.toOption]

/-- A cursor binds `x`, an inner scope hides it for a while and binds `g` for good. -/
def hidingLoop : List Operation :=
  [.beginScope 0, .setRepeat 0 ['x'] (.text ['l']), .advance 0, .beginScope 0,
   .setLocal 0 ['x'] (.int 5), .setGlobal 0 ['g'] (.int 7), .endScope 0]

theorem variables_after_hidingLoop :
    ∃ s', (ofRoots [(['l'], .list [.int 1, .int 2])]).run hidingLoop = some s' ∧
      s'.get? 0 ['x'] = some (.int 1) ∧ s'.get? 0 ['g'] = some (.int 7) ∧
      s'.endScope 0 ≠ .error .noOpenScope := by
  have hdrop : .drop 0 ∉ hidingLoop := by simp [hidingLoop]
  obtain ⟨hget, -, hend, -⟩ :=
    @variables_are_last_visible_writes (ofRoots [(['l'], .list [.int 1, .int 2])]) _ 0 _ _
      hidingLoop rfl rfl hdrop rfl
  exact ⟨_, rfl, (hget ['x']).trans rfl, (hget ['g']).trans rfl,
    fun h => List.cons_ne_nil _ _ (hend.1 h)⟩

end TemplateExpressions.Session
