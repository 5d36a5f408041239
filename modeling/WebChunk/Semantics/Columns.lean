/-!
# Loops over independent places

A state seen as parts at places. A run acts on the places if it keeps an invariant and what it
makes of each part depends on that part alone; then a nest of loops makes of a part what its own
steps make of it.
-/

namespace WebChunk.Semantics

variable {State Place Part Step : Type}

/-- What a run makes of each part of a state that satisfies the invariant. -/
structure Acts (inv : State → Prop) (view : State → Place → Part) (run : State → State)
    (effect : Place → Part → Part) : Prop where
  kept : ∀ {state}, inv state → inv (run state)
  part : ∀ state, inv state → ∀ place, view (run state) place = effect place (view state place)

variable {inv : State → Prop} {view : State → Place → Part}

namespace Acts

/-- A run that leaves the state alone. -/
theorem skip : Acts inv view (fun state => state) fun _ part => part :=
  ⟨fun holds => holds, fun _ _ _ => rfl⟩

/-- A loop of runs that act. -/
theorem foldl {step : State → Step → State} {effect : Step → Place → Part → Part}
    (steps : List Step)
    (acts : ∀ x ∈ steps, Acts inv view (fun state => step state x) (effect x)) :
    Acts inv view (fun state => steps.foldl step state) fun place part =>
      steps.foldl (fun part x => effect x place part) part := by
  induction steps with
  | nil => exact skip
  | cons x rest inductionHypothesis =>
      have first := acts x List.mem_cons_self
      have later := inductionHypothesis fun y member => acts y (List.mem_cons_of_mem x member)
      refine ⟨fun holds => later.kept (first.kept holds), fun state holds place => ?_⟩
      have next := later.part _ (first.kept holds) place
      rw [first.part state holds place] at next
      exact next

/-- A loop that works at one place after the other. -/
theorem places [DecidableEq Place] {step : State → Place → State} {work : Place → Part → Part}
    {places : List Place} (once : places.Nodup)
    (acts : ∀ here ∈ places, Acts inv view (fun state => step state here) fun place part =>
      if place = here then work place part else part) :
    Acts inv view (fun state => places.foldl step state) fun place part =>
      if place ∈ places then work place part else part := by
  induction places with
  | nil => exact skip
  | cons here rest inductionHypothesis =>
      obtain ⟨notLater, once⟩ := List.nodup_cons.mp once
      have first := acts here List.mem_cons_self
      have later := inductionHypothesis once
        fun other member => acts other (List.mem_cons_of_mem here member)
      refine ⟨fun holds => later.kept (first.kept holds), fun state holds place => ?_⟩
      have next := later.part _ (first.kept holds) place
      rw [first.part state holds place] at next
      rw [List.foldl_cons]
      refine next.trans ?_
      by_cases same : place = here
      · subst same
        simp [notLater]
      · simp [same]

end Acts

end WebChunk.Semantics
