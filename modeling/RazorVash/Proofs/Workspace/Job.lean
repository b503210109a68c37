import Mathlib.Order.Defs.Unbundled
import RazorVash.Workspace.Basic

namespace RazorVash.Job

variable {σ τ α β ε : Type} {job : Job σ α} {next : α → Job σ β} {s t u : σ} {a : α} {b : β}
  {e : Failure}

/-- What a job gives from a state, and the state that is left. -/
def outcome (job : Job σ α) (state : σ) : Except Failure α × σ := job.run.run state

@[simp] theorem outcome_pure (a : α) (s : σ) : (pure a : Job σ α).outcome s = (.ok a, s) := rfl

@[simp] theorem outcome_get (s : σ) : (get : Job σ σ).outcome s = (.ok s, s) := rfl

@[simp] theorem outcome_modify (change : σ → σ) (s : σ) :
    (modify change : Job σ Unit).outcome s = (.ok (), change s) := rfl

theorem outcome_bind (job : Job σ α) (next : α → Job σ β) (s : σ) :
    (job >>= next).outcome s =
      match job.outcome s with
      | (.ok a, t) => (next a).outcome t
      | (.error e, t) => (.error e, t) := by
  unfold outcome
  rw [ExceptT.run_bind, StateT.run_bind]
  rcases job.run.run s with ⟨_ | _, _⟩ <;> rfl

theorem outcome_bind_of_ok (h : job.outcome s = (.ok a, t)) :
    (job >>= next).outcome s = (next a).outcome t := by
  rw [outcome_bind, h]

theorem outcome_bind_of_error (h : job.outcome s = (.error e, t)) :
    (job >>= next).outcome s = (.error e, t) := by
  rw [outcome_bind, h]

theorem outcome_bind_eq_ok :
    (job >>= next).outcome s = (.ok b, u) ↔
      ∃ a t, job.outcome s = (.ok a, t) ∧ (next a).outcome t = (.ok b, u) := by
  rw [outcome_bind]
  rcases job.outcome s with ⟨e | a, t⟩
  · simp
  · constructor
    · exact fun h => ⟨a, t, rfl, h⟩
    · rintro ⟨a', t', hFirst, h⟩
      obtain ⟨rfl, rfl⟩ : a = a' ∧ t = t' := by simpa using hFirst
      exact h

/-- What a failing job did stays done when its failure is handled. -/
theorem outcome_tryCatch (job : Job σ α) (handler : Failure → Job σ α) (s : σ) :
    (tryCatch job handler : Job σ α).outcome s =
      match job.outcome s with
      | (.ok a, t) => (.ok a, t)
      | (.error e, t) => (handler e).outcome t := by
  unfold outcome
  rw [ExceptT.run_tryCatch, StateT.run_bind]
  rcases job.run.run s with ⟨_ | _, _⟩ <;> rfl

@[simp] theorem outcome_ofExcept (cause : ε → Failure) (result : Except ε α) (s : σ) :
    (ofExcept cause result).outcome s = (result.mapError cause, s) := by
  cases result <;> rfl

theorem outcome_ofExcept_bind (cause : ε → Failure) (result : Except ε α) (next : α → Job σ β)
    (s : σ) :
    (ofExcept cause result >>= next).outcome s =
      match result with
      | .ok a => (next a).outcome s
      | .error e => (.error (cause e), s) := by
  cases result <;> rfl

@[simp] theorem outcome_onPart (part : τ → σ) (replace : τ → σ → τ) (job : Job σ α) (whole : τ) :
    (onPart part replace job).outcome whole =
      ((job.outcome (part whole)).1, replace whole (job.outcome (part whole)).2) := rfl

/-- Steps that succeed wherever something holds, and leave it so, succeed one after the other. -/
theorem exists_forM {P : σ → Prop} {items : List ε} {each : ε → Job σ PUnit}
    (h : ∀ item ∈ items, ∀ s, P s → ∃ t, (each item).outcome s = (.ok (), t) ∧ P t) (hs : P s) :
    ∃ t, (items.forM each).outcome s = (.ok (), t) ∧ P t := by
  induction items generalizing s with
  | nil => exact ⟨s, rfl, hs⟩
  | cons item items ih =>
    obtain ⟨t, hFirst, ht⟩ := h item List.mem_cons_self s hs
    obtain ⟨u, hRest, hu⟩ := ih (fun other ho => h other (List.mem_cons_of_mem _ ho)) ht
    exact ⟨u, (outcome_bind_of_ok hFirst).trans hRest, hu⟩

/-- Whether a job succeeds or fails, the state that it leaves stands in this relation to the one
that it found. -/
def Keeps (relation : σ → σ → Prop) (job : Job σ α) : Prop := ∀ s, relation s (job.outcome s).2

section Keeps
variable {R : σ → σ → Prop}

theorem Keeps.of_outcome (h : Keeps R job) {result : Except Failure α}
    (hRun : job.outcome s = (result, t)) : R s t := by
  have := h s
  rwa [hRun] at this

theorem Keeps.mono {R' : σ → σ → Prop} (h : Keeps R job) (hR : ∀ s t, R s t → R' s t) :
    Keeps R' job :=
  fun s => hR _ _ (h s)

variable [IsPreorder σ R]

theorem keeps_pure (a : α) : Keeps R (pure a) := fun s => Std.Refl.refl s

theorem keeps_throw (e : Failure) : Keeps R (throw e : Job σ α) := fun s => Std.Refl.refl s

theorem keeps_get : Keeps R (get : Job σ σ) := fun s => Std.Refl.refl s

theorem keeps_ofExcept (cause : ε → Failure) (result : Except ε α) :
    Keeps R (ofExcept cause result) := by
  intro s
  rw [outcome_ofExcept]
  exact Std.Refl.refl s

theorem Keeps.bind (h : Keeps R job) (hn : ∀ a, Keeps R (next a)) : Keeps R (job >>= next) := by
  intro s
  have hFirst := h s
  rw [outcome_bind]
  rcases hRun : job.outcome s with ⟨_ | a, t⟩
  · rw [hRun] at hFirst
    exact hFirst
  · rw [hRun] at hFirst
    exact IsTrans.trans _ _ _ hFirst (hn a t)

theorem keeps_forM {items : List ε} {each : ε → Job σ PUnit}
    (h : ∀ item ∈ items, Keeps R (each item)) : Keeps R (items.forM each) := by
  induction items with
  | nil => exact keeps_pure _
  | cons item items ih =>
    have hRest := ih fun other ho => h other (List.mem_cons_of_mem _ ho)
    exact (h item List.mem_cons_self).bind fun _ => hRest

end Keeps

end RazorVash.Job
