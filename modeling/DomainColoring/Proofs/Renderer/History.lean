import DomainColoring.Proofs.Renderer.System

/-!
# Histories

A request or a cancellation supersedes all that was asked for before it, and the generation of a request is the number of such
occurrences up to it. `Issued` ties a generation to the drawing of the request that returned it; there is one such drawing at most
(`Issued.unique`).
-/

namespace DomainColoring

variable {α : Type}

namespace Occurrence

/-- Whether nothing that was asked for before is wanted any more. -/
@[simp] def supersedes : Occurrence α → Bool
  | requested _ => true
  | cancelled => true
  | _ => false

/-- The frame that becomes the one that is shown. -/
@[simp] def frame? : Occurrence α → Option (Frame α)
  | installed frame => some frame
  | _ => none

/-- The response that is taken from the queue. -/
@[simp] def response? : Occurrence α → Option (Response α)
  | consumed response => some response
  | _ => none

end Occurrence

namespace History

/-- How many requests and cancellations there have been. -/
def asks (history : List (Occurrence α)) : Nat :=
  history.countP (·.supersedes)

/-- The frames that have been installed, the earliest first. -/
def frames (history : List (Occurrence α)) : List (Frame α) :=
  history.filterMap (·.frame?)

/-- The responses that have been taken from the queue, the earliest first. -/
def responses (history : List (Occurrence α)) : List (Response α) :=
  history.filterMap (·.response?)

@[simp] theorem asks_nil : asks ([] : List (Occurrence α)) = 0 := rfl

/-- An occurrence that supersedes counts as one request. -/
@[simp] theorem asks_cons (o : Occurrence α) (history : List (Occurrence α)) :
    asks (o :: history) = asks history + if o.supersedes then 1 else 0 :=
  List.countP_cons

@[simp] theorem asks_append (history more : List (Occurrence α)) : asks (history ++ more) = asks history + asks more :=
  List.countP_append

@[simp] theorem frames_nil : frames ([] : List (Occurrence α)) = [] := rfl

@[simp] theorem frames_cons (o : Occurrence α) (history : List (Occurrence α)) :
    frames (o :: history) = o.frame?.toList ++ frames history := by
  cases o <;> rfl

@[simp] theorem frames_append (history more : List (Occurrence α)) :
    frames (history ++ more) = frames history ++ frames more :=
  List.filterMap_append

@[simp] theorem responses_nil : responses ([] : List (Occurrence α)) = [] := rfl

@[simp] theorem responses_cons (o : Occurrence α) (history : List (Occurrence α)) :
    responses (o :: history) = o.response?.toList ++ responses history := by
  cases o <;> rfl

@[simp] theorem responses_append (history more : List (Occurrence α)) :
    responses (history ++ more) = responses history ++ responses more :=
  List.filterMap_append

/-- The responses are those whose taking has occurred. -/
theorem mem_responses {history : List (Occurrence α)} {response : Response α} :
    response ∈ responses history ↔ .consumed response ∈ history := by
  simp only [responses, List.mem_filterMap]
  constructor
  · rintro ⟨occurrence, hm, ho⟩
    cases occurrence with
    | consumed response' =>
      cases ho
      exact hm
    | _ => cases ho
  · exact fun hm => ⟨_, hm, rfl⟩

/-- An occurrence without a response takes none. -/
theorem mem_of_mem_snoc {history : List (Occurrence α)} {o : Occurrence α} {response : Response α}
    (none : o.response? = none) (hm : .consumed response ∈ history ++ [o]) : .consumed response ∈ history := by
  rcases List.mem_append.1 hm with hm | hm
  · exact hm
  · rw [← List.mem_singleton.1 hm] at none
    cases none

/-- The last occurrence of a history is the one in question, or the one in question comes before it. -/
theorem split_snoc {history before after : List (Occurrence α)} {last o : Occurrence α}
    (h : history ++ [last] = before ++ o :: after) :
    (history = before ∧ last = o) ∨ ∃ after', history = before ++ o :: after' := by
  rcases List.eq_nil_or_concat after with rfl | ⟨after', last', rfl⟩
  · exact .inl ⟨List.append_inj_left' h rfl, by simpa using List.append_inj_right' h rfl⟩
  · refine .inr ⟨after', ?_⟩
    rw [List.concat_eq_append, ← List.cons_append, ← List.append_assoc] at h
    exact List.append_inj_left' h rfl

/-! ## Generations and their drawings -/

/-- A request for the drawing has returned the generation: the number of requests and cancellations up to it. -/
def Issued (history : List (Occurrence α)) (generation : Nat) (drawing : Drawing α) : Prop :=
  ∃ earlier later, history = earlier ++ .requested drawing :: .numbered generation :: later ∧
    generation = asks earlier + 1

variable {history : List (Occurrence α)} {generation : Nat} {drawing drawing' : Drawing α}

/-- A generation that a request has returned stays that of its drawing. -/
theorem Issued.append (h : Issued history generation drawing) (more : List (Occurrence α)) :
    Issued (history ++ more) generation drawing := by
  obtain ⟨earlier, later, rfl, hg⟩ := h
  exact ⟨earlier, later ++ more, by simp, hg⟩

theorem Issued.requested_mem (h : Issued history generation drawing) : .requested drawing ∈ history := by
  obtain ⟨earlier, later, rfl, -⟩ := h
  simp

theorem Issued.numbered_mem (h : Issued history generation drawing) : .numbered generation ∈ history := by
  obtain ⟨earlier, later, rfl, -⟩ := h
  simp

/-- A request counts once among those before and after it. -/
theorem asks_issued (earlier later : List (Occurrence α)) (drawing : Drawing α) (generation : Nat) :
    asks (earlier ++ .requested drawing :: .numbered generation :: later) = asks earlier + 1 + asks later := by
  simp
  omega

/-- No generation is returned that has not been counted. -/
theorem Issued.le_asks (h : Issued history generation drawing) : generation ≤ asks history := by
  obtain ⟨earlier, later, rfl, hg⟩ := h
  rw [asks_issued]
  omega

/-- Nothing has superseded a request whose generation counts all requests and cancellations there have been. -/
theorem Issued.newest (h : Issued history generation drawing) (latest : generation = asks history) :
    ∃ earlier later, history = earlier ++ .requested drawing :: .numbered generation :: later ∧
      ∀ o ∈ later, o.supersedes = false := by
  obtain ⟨earlier, later, rfl, hg⟩ := h
  rw [asks_issued] at latest
  have hl : asks later = 0 := by omega
  refine ⟨earlier, later, rfl, ?_⟩
  intro o ho
  simpa using List.countP_eq_zero.1 hl o ho

/-- A request that starts after another one has a greater generation. -/
theorem asks_lt_of_later {earlier earlier' : List (Occurrence α)} {rest : List (Occurrence α)}
    (h : earlier' = earlier ++ .requested drawing :: rest) : asks earlier < asks earlier' := by
  simp [h]

/-- No two requests return the same generation. -/
theorem Issued.unique (h : Issued history generation drawing) (h' : Issued history generation drawing') :
    drawing = drawing' := by
  obtain ⟨earlier, later, rfl, hg⟩ := h
  obtain ⟨earlier', later', he, hg'⟩ := h'
  -- Either both are the same request, or one of them comes first and has the smaller generation.
  have hasks : asks earlier = asks earlier' := by omega
  rcases List.append_eq_append_iff.1 he with ⟨between, h1, h2⟩ | ⟨between, h1, h2⟩
  · cases between with
    | nil =>
      simp only [List.nil_append, List.cons.injEq, Occurrence.requested.injEq] at h2
      exact h2.1
    | cons o between =>
      simp only [List.cons_append, List.cons.injEq] at h2
      obtain ⟨rfl, -⟩ := h2
      exact absurd hasks (Nat.ne_of_lt (asks_lt_of_later h1))
  · cases between with
    | nil =>
      simp only [List.nil_append, List.cons.injEq, Occurrence.requested.injEq] at h2
      exact h2.1.symm
    | cons o between =>
      simp only [List.cons_append, List.cons.injEq] at h2
      obtain ⟨rfl, -⟩ := h2
      exact absurd hasks.symm (Nat.ne_of_lt (asks_lt_of_later h1))

end History

end DomainColoring
