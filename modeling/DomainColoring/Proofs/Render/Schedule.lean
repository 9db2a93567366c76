import Mathlib.Data.List.Perm.Subperm
import Mathlib.Logic.Function.Iterate
import DomainColoring.Proofs.Render.Picture

/-!
# Renders under any schedule

Rows start and finish in any order, and somebody may cancel at any moment. `Run.Sound` is what holds of a render throughout: it
has painted its rows as the drawing has them, each row at most once, it counts the rows it has painted, and it has left out a row
only if it was cancelled. The main statement (`whole_or_cancelled`) is that a render without rows left is cancelled if somebody
cancelled after it noted the generation, and has the whole picture otherwise.
-/

namespace DomainColoring

/-- What can happen to a render under way. -/
inductive RenderMove where
  /-- Somebody cancels. -/
  | cancel
  | row (step : RowStep)
  deriving DecidableEq, Repr

namespace Run

variable {α : Type}

/-- The rows of a render that are painted, started or waiting, and so not left out. -/
def rows (r : Run α) : List Nat :=
  r.painted.map Prod.fst ++ (r.started.map Prod.fst ++ r.waiting)

/-- How many steps the rows of a render can still take. -/
def remaining (r : Run α) : Nat :=
  2 * r.waiting.length + r.started.length

/-- In the end all rows are painted. -/
theorem rows_of_isDrained {r : Run α} (h : r.isDrained = true) : r.rows = r.painted.map Prod.fst := by
  simp only [isDrained, Bool.and_eq_true, List.isEmpty_iff] at h
  simp [rows, h.1, h.2]

/-- A row that starts is still to be accounted for. -/
theorem rows_start {r : Run α} {row : Nat} (lane : Nat) (hw : row ∈ r.waiting) :
    ({ r with waiting := r.waiting.erase row, started := (row, lane) :: r.started } : Run α).rows.Perm r.rows := by
  refine List.Perm.append_left _ ?_
  simp only [List.map_cons, List.cons_append]
  exact List.perm_middle.symm.trans ((List.perm_cons_erase hw).symm.append_left _)

/-- A row that is left out drops out of the account, and no other row does. -/
theorem rows_leftOut {r : Run α} {row : Nat} :
    ({ r with waiting := r.waiting.erase row } : Run α).rows.Sublist r.rows :=
  ((List.erase_sublist).append_left _).append_left _

/-- A row that is painted remains accounted for. -/
theorem rows_finish {r r' : Run α} {row lane : Nat} {colors : List Rgb} (hm : (row, lane) ∈ r.started)
    (hw : r'.waiting = r.waiting) (hs : r'.started = r.started.erase (row, lane))
    (hp : r'.painted = (row, colors) :: r.painted) : r'.rows.Perm r.rows := by
  have he : (r.started.map Prod.fst).Perm (row :: (r.started.erase (row, lane)).map Prod.fst) :=
    (List.perm_cons_erase hm).map Prod.fst
  simp only [rows, hw, hs, hp, List.map_cons, List.cons_append]
  refine List.perm_middle.symm.trans (List.Perm.append_left _ ?_)
  exact (he.symm.append_right _)

variable [Add α] [Sub α] [Mul α] [Div α] [Neg α] [BEq α] [NatCast α] [Elementary α] [Scalar α] [LT α] [DecidableLT α]

/-- A render and its handle after a move; one that is not possible changes nothing. -/
def move (state : Run α × Handle) : RenderMove → Run α × Handle
  | .cancel => (state.1, state.2.cancel)
  | .row step => Run.step state step

/-- What holds of a render of a drawing that noted the generation `noted`, throughout. -/
structure Sound (d : Drawing α) (noted : Nat) (r : Run α) (h : Handle) : Prop where
  drawing : r.drawing = d
  generation : r.generation = noted
  /-- The generation of the handle only grows. -/
  noted_le : noted ≤ h.generation
  /-- A painted row has the colors of the drawing. -/
  colors : ∀ entry ∈ r.painted, entry.2 = d.rowColors entry.1
  undefinedPixels : r.undefinedPixels = d.undefinedOf (r.painted.map Prod.fst)
  total : h.total = d.size.height
  done : h.done = r.painted.length
  /-- No row is taken up twice. -/
  subperm : r.rows.Subperm (List.range d.size.height)
  /-- No row is left out before somebody cancels. -/
  perm : h.generation = noted → r.rows.Perm (List.range d.size.height)

/-- The start of a row takes it out of those that wait, and it is left out only after a cancellation. -/
theorem step?_start {r r' : Run α} {h h' : Handle} {row lane : Nat} (hs : r.step? h (.start row lane) = some (r', h')) :
    row ∈ r.waiting ∧ h' = h ∧
      r' = { r with
        waiting := r.waiting.erase row
        started := if h.generation = r.generation then (row, lane) :: r.started else r.started } := by
  simp only [step?] at hs
  split at hs
  · rename_i hw
    simp only [Option.some.injEq, Prod.mk.injEq] at hs
    obtain ⟨rfl, rfl⟩ := hs
    refine ⟨hw.1, rfl, ?_⟩
    split <;> rfl
  · cases hs

/-- The end of a row puts it among the painted rows, and counts it. -/
theorem step?_finish {r r' : Run α} {h h' : Handle} {row lane : Nat} (hs : r.step? h (.finish row lane) = some (r', h')) :
    (row, lane) ∈ r.started ∧ h' = h.rowDone ∧
      r'.drawing = r.drawing ∧ r'.generation = r.generation ∧ r'.waiting = r.waiting ∧
      r'.started = r.started.erase (row, lane) ∧ r'.painted = (row, r.drawing.rowColors row) :: r.painted ∧
      r'.undefinedPixels = r.undefinedPixels + r.drawing.rowUndefined row := by
  simp only [step?] at hs
  split at hs
  · rename_i hm
    simp only [Option.some.injEq, Prod.mk.injEq] at hs
    obtain ⟨rfl, rfl⟩ := hs
    refine ⟨hm, rfl, rfl, rfl, rfl, rfl, ?_, ?_⟩
    · simp only [Plot.paintRow_colors, Drawing.rowColors]
    · simp only [Plot.paintRow_undefinedPixels, Drawing.rowUndefined]
  · cases hs

namespace Sound

variable {d : Drawing α} {noted : Nat} {r r' : Run α} {h h' : Handle}

/-- A render begins with all its rows waiting. -/
theorem initial (hn : noted ≤ h.generation) : Sound d noted (.initial d noted) (h.resetProgress d.size.height) where
  drawing := rfl
  generation := rfl
  noted_le := hn
  colors := by simp [Run.initial]
  undefinedPixels := rfl
  total := rfl
  done := rfl
  subperm := (List.Perm.refl _).subperm
  perm := fun _ => List.Perm.refl _

/-- Whatever holds of a render holds after a cancellation. -/
theorem cancel (s : Sound d noted r h) : Sound d noted r h.cancel where
  drawing := s.drawing
  generation := s.generation
  noted_le := Nat.le_succ_of_le s.noted_le
  colors := s.colors
  undefinedPixels := s.undefinedPixels
  total := s.total
  done := s.done
  subperm := s.subperm
  perm := by
    intro he
    have hle := s.noted_le
    simp only [Handle.cancel] at he
    omega

/-- It holds after a row has started or has been left out. -/
theorem start {row lane : Nat} (s : Sound d noted r h) (hs : r.step? h (.start row lane) = some (r', h')) :
    Sound d noted r' h' := by
  obtain ⟨hw, rfl, rfl⟩ := step?_start hs
  by_cases hg : h'.generation = r.generation
  · simp only [if_pos hg]
    have hp := rows_start lane hw
    exact { s with
      subperm := hp.subperm.trans s.subperm
      perm := fun he => hp.trans (s.perm he) }
  · simp only [if_neg hg]
    exact { s with
      subperm := rows_leftOut.subperm.trans s.subperm
      perm := fun he => absurd (he.trans s.generation.symm) hg }

/-- It holds after a row has been painted. -/
theorem finish {row lane : Nat} (s : Sound d noted r h) (hs : r.step? h (.finish row lane) = some (r', h')) :
    Sound d noted r' h' := by
  obtain ⟨hm, rfl, hd, hg, hw, hst, hp, hu⟩ := step?_finish hs
  rw [s.drawing] at hd hp hu
  have hperm := rows_finish hm hw hst hp
  refine ⟨hd, hg.trans s.generation, s.noted_le, ?_, ?_, s.total, ?_, hperm.subperm.trans s.subperm,
    fun he => hperm.trans (s.perm he)⟩
  · intro entry hentry
    rw [hp, List.mem_cons] at hentry
    rcases hentry with rfl | hentry
    · rfl
    · exact s.colors entry hentry
  · rw [hu, hp, List.map_cons, s.undefinedPixels, Nat.add_comm]
    rfl
  · rw [hp, List.length_cons, ← s.done]
    rfl

/-- Every step of a row that is possible keeps what holds of a render. -/
theorem step? {step : RowStep} (s : Sound d noted r h) (hs : r.step? h step = some (r', h')) : Sound d noted r' h' := by
  cases step with
  | start row lane => exact s.start hs
  | finish row lane => exact s.finish hs

/-- Every move keeps what holds of a render. -/
theorem move (s : Sound d noted r h) (m : RenderMove) : Sound d noted (Run.move (r, h) m).1 (Run.move (r, h) m).2 := by
  cases m with
  | cancel => exact s.cancel
  | row step =>
    simp only [Run.move, Run.step]
    cases hs : r.step? h step with
    | none => exact s
    | some state => exact s.step? hs

/-- What holds of a render holds after any row of moves. -/
theorem moves (s : Sound d noted r h) (ms : List RenderMove) :
    Sound d noted (ms.foldl Run.move (r, h)).1 (ms.foldl Run.move (r, h)).2 := by
  induction ms generalizing r h with
  | nil => exact s
  | cons m ms ih => exact ih (s.move m)

/-- The rows that are counted are some of those of the drawing. -/
theorem done_le_total (s : Sound d noted r h) : h.done ≤ h.total := by
  have hl := s.subperm.length_le
  simp only [Run.rows, List.length_append, List.length_map, List.length_range] at hl
  rw [s.done, s.total]
  omega

/-- If nobody cancelled, all rows are painted in the end. -/
theorem painted_perm (s : Sound d noted r h) (drained : r.isDrained = true) (hg : h.generation = noted) :
    (r.painted.map Prod.fst).Perm (List.range d.size.height) := by
  rw [← rows_of_isDrained drained]
  exact s.perm hg

/-- The image is that of the painted rows. -/
theorem image_eq (s : Sound d noted r h) : r.image = d.imageOf (r.painted.map Prod.fst) := by
  rw [Run.image, Drawing.imageOf, List.foldr_map, s.drawing]
  refine List.foldr_ext _ _ _ ?_
  intro entry hentry image
  rw [← s.colors entry hentry]

/-- A render that nobody cancelled ends with the picture of the drawing. -/
theorem outcome_of_uncancelled (s : Sound d noted r h) (drained : r.isDrained = true) (hg : h.generation = noted) :
    r.outcome h = .ok d.picture := by
  have hp := s.painted_perm drained hg
  rw [Run.outcome, if_pos (hg.trans s.generation.symm), s.image_eq, s.undefinedPixels, d.imageOf_perm hp,
    d.undefinedOf_perm hp]
  rfl

/-- A render that somebody cancelled ends without a picture. -/
theorem outcome_of_cancelled (s : Sound d noted r h) (hg : h.generation ≠ noted) : r.outcome h = .error .cancelled := by
  rw [Run.outcome, if_neg fun he => hg (he.trans s.generation)]

end Sound

/-- A row step leaves the generation of the handle alone. -/
theorem step?_generation {r r' : Run α} {h h' : Handle} {step : RowStep} (hs : r.step? h step = some (r', h')) :
    h'.generation = h.generation := by
  cases step with
  | start row lane => rw [(step?_start hs).2.1]
  | finish row lane => rw [(step?_finish hs).2.1]; rfl

/-- A row step leaves the generation that its render has noted alone. -/
theorem step?_noted {r r' : Run α} {h h' : Handle} {step : RowStep} (hs : r.step? h step = some (r', h')) :
    r'.generation = r.generation := by
  cases step with
  | start row lane =>
    rw [(step?_start hs).2.2]
  | finish row lane =>
    obtain ⟨-, -, -, noted, -⟩ := step?_finish hs
    exact noted

/-- The generation of the handle counts the cancellations. -/
theorem moves_generation (ms : List RenderMove) (r : Run α) (h : Handle) :
    (ms.foldl Run.move (r, h)).2.generation = h.generation + ms.count .cancel := by
  induction ms generalizing r h with
  | nil => rfl
  | cons m ms ih =>
    rw [List.foldl_cons, ih]
    cases m with
    | cancel =>
      rw [List.count_cons_self]
      simp only [Run.move, Handle.cancel]
      omega
    | row step =>
      rw [List.count_cons_of_ne (by simp)]
      simp only [Run.move, Run.step]
      cases hs : r.step? h step with
      | none => rfl
      | some state => rw [Option.getD_some, step?_generation hs]

/-- A render never gets stuck: as long as a row is left, one can start or be finished. -/
theorem exists_step?_of_not_isDrained {r : Run α} (h : Handle) (hd : r.isDrained = false) :
    ∃ step state, r.step? h step = some state := by
  cases hs : r.started with
  | cons entry rest =>
    obtain ⟨row, lane⟩ := entry
    have hm : (row, lane) ∈ r.started := by simp [hs]
    exact ⟨.finish row lane, _, if_pos hm⟩
  | nil =>
    cases hw : r.waiting with
    | cons row rest =>
      have hm : row ∈ r.waiting ∧ ∀ other ∈ r.started, other.2 ≠ 0 := by simp [hs, hw]
      exact ⟨.start row 0, _, if_pos hm⟩
    | nil => simp [isDrained, hs, hw] at hd

/-- A render comes to an end: every step that is possible leaves fewer of them. -/
theorem remaining_lt {r r' : Run α} {h h' : Handle} {step : RowStep} (hs : r.step? h step = some (r', h')) :
    r'.remaining < r.remaining := by
  cases step with
  | start row lane =>
    obtain ⟨hw, -, rfl⟩ := step?_start hs
    have hl := List.length_erase_add_one hw
    simp only [remaining]
    split
    · rw [List.length_cons]
      omega
    · omega
  | finish row lane =>
    obtain ⟨hm, -, -, -, hw, hst, -⟩ := step?_finish hs
    have hl := List.length_erase_add_one hm
    rw [remaining, remaining, hw, hst]
    omega

/-! ## The render without interruption -/

/-- A row that starts and is painted at once is out of the way, whether it was left out or not. -/
theorem step_start_finish {r : Run α} {row : Nat} {rest : List Nat} (h : Handle) (hw : r.waiting = row :: rest)
    (hs : r.started = []) :
    (step (step (r, h) (.start row 0)) (.finish row 0)).1.waiting = rest ∧
      (step (step (r, h) (.start row 0)) (.finish row 0)).1.started = [] := by
  by_cases hg : h.generation = r.generation
  · simp [step, step?, hg, hw, hs]
  · simp [step, step?, hg, hw, hs]

/-- Rows that are taken one after the other leave nothing behind. -/
theorem isDrained_foldl_inOrder (rows : List Nat) (r : Run α) (h : Handle) (hw : r.waiting = rows) (hs : r.started = []) :
    ((rows.flatMap fun row => [.start row 0, .finish row 0]).foldl step (r, h)).1.isDrained = true := by
  induction rows generalizing r h with
  | nil => simp [isDrained, hw, hs]
  | cons row rest ih =>
    obtain ⟨hw', hs'⟩ := step_start_finish h hw hs
    simp only [List.flatMap_cons, List.foldl_append, List.foldl_cons, List.foldl_nil]
    exact ih _ _ hw' hs'

/-- Row steps alone are moves without a cancellation. -/
theorem foldl_step_eq (steps : List RowStep) (state : Run α × Handle) :
    steps.foldl step state = (steps.map RenderMove.row).foldl move state := by
  rw [List.foldl_map]
  rfl

namespace Sound

variable {d : Drawing α} {noted : Nat} {r : Run α} {h : Handle}

/-- What is on the stacks of the lanes is of no account. -/
theorem withLanes (s : Sound d noted r h) (lanes : List (Stack α)) : Sound d noted { r with lanes } h :=
  { s with }

/-- A render that nobody has cancelled so far ends with the picture of the drawing if nothing happens from then on but the steps
of its rows, in whatever order. -/
theorem outcome_of_rowSteps (s : Sound d noted r h) (hg : h.generation = noted) (steps : List RowStep)
    (drained : (steps.foldl step (r, h)).1.isDrained = true) :
    (steps.foldl step (r, h)).1.outcome (steps.foldl step (r, h)).2 = .ok d.picture := by
  have hs := s.moves (steps.map .row)
  have generation := moves_generation (steps.map .row) r h
  rw [← foldl_step_eq] at hs generation
  refine hs.outcome_of_uncancelled drained ((generation.trans ?_).trans hg)
  rw [List.count_eq_zero_of_not_mem (by simp), Nat.add_zero]

end Sound

end Run

/-- Counting the rows anew leaves the generation alone. -/
@[simp] theorem Handle.generation_resetProgress (h : Handle) (total : Nat) :
    (h.resetProgress total).generation = h.generation := rfl

/-- Each cancellation advances the generation by one. -/
theorem Handle.generation_cancel_iterate (h : Handle) (n : Nat) :
    (Handle.cancel^[n] h).generation = h.generation + n := by
  induction n with
  | zero => rfl
  | succ n ih =>
    rw [Function.iterate_succ_apply', Handle.cancel, ih]
    rfl

namespace Drawing

variable {α : Type}

theorem begin_of_accepted {d : Drawing α} (accepted : d.size.Accepted) (generation : Nat) (h : Handle) :
    d.begin generation h = .ok (.initial d generation, h.resetProgress d.size.height) :=
  if_pos accepted

theorem begin_of_refused {d : Drawing α} (refused : ¬d.size.Accepted) (generation : Nat) (h : Handle) :
    d.begin generation h = .error (.size ⟨d.size⟩) :=
  if_neg refused

variable [Add α] [Sub α] [Mul α] [Div α] [Neg α] [BEq α] [NatCast α] [Elementary α] [Scalar α] [LT α]
  [DecidableLT α]

/-- The uninterrupted render of a drawing of an accepted size gives its picture. -/
theorem render_of_accepted {d : Drawing α} (accepted : d.size.Accepted) : d.render = .ok d.picture := by
  have hs : Run.Sound d 0 (.initial d 0) (Handle.initial.resetProgress d.size.height) := .initial (Nat.le_refl 0)
  simp only [Drawing.render, Drawing.renderWith, begin_of_accepted accepted]
  exact hs.outcome_of_rowSteps rfl _ (Run.isDrained_foldl_inOrder (List.range d.size.height) _ _ rfl rfl)

theorem render_of_refused {d : Drawing α} (refused : ¬d.size.Accepted) : d.render = .error (.size ⟨d.size⟩) := by
  simp only [Drawing.render, Drawing.renderWith, begin_of_refused refused]

/-- Somebody may cancel at any moment: `early` times between the moment when the render notes the generation of the handle and
its beginning, and then between any two steps of its rows, which take their steps in any order. Throughout, the count of the
handle is that of the painted rows and does not exceed the height. The steps come to an end, and only when no row is left. Then
the render is cancelled if there was a cancellation, and has painted every row and the picture of the uninterrupted render if
there was none. -/
theorem whole_or_cancelled {d : Drawing α} (accepted : d.size.Accepted) (h : Handle) (early : Nat)
    (ms : List RenderMove) :
    ∃ begun r h', d.begin h.generation (Handle.cancel^[early] h) = .ok begun ∧ ms.foldl Run.move begun = (r, h') ∧
      h'.done = r.painted.length ∧ h'.done ≤ h'.total ∧ h'.total = d.size.height ∧
      (∀ step state, r.step? h' step = some state → state.1.remaining < r.remaining) ∧
      (r.isDrained = false → ∃ step state, r.step? h' step = some state) ∧
      (r.isDrained = true → 0 < early ∨ .cancel ∈ ms → r.outcome h' = .error .cancelled) ∧
      (r.isDrained = true → ¬(0 < early ∨ .cancel ∈ ms) →
        (∃ picture, r.outcome h' = .ok picture ∧ d.render = .ok picture) ∧
          (r.painted.map Prod.fst).Perm (List.range d.size.height) ∧ h'.done = h'.total) := by
  have hs : Run.Sound d h.generation (.initial d h.generation)
      ((Handle.cancel^[early] h).resetProgress d.size.height) :=
    .initial (by rw [Handle.generation_cancel_iterate]; omega)
  have hs' := hs.moves ms
  have hg := Run.moves_generation ms (.initial d h.generation) ((Handle.cancel^[early] h).resetProgress d.size.height)
  rw [Handle.generation_resetProgress, Handle.generation_cancel_iterate] at hg
  obtain ⟨⟨r, h'⟩, hstate⟩ : ∃ state, ms.foldl Run.move
      (.initial d h.generation, (Handle.cancel^[early] h).resetProgress d.size.height) = state := ⟨_, rfl⟩
  simp only [hstate] at hs' hg
  refine ⟨_, r, h', begin_of_accepted accepted _ _, hstate, hs'.done, hs'.done_le_total, hs'.total,
    fun step state => Run.remaining_lt, Run.exists_step?_of_not_isDrained _, ?_, ?_⟩
  · intro _ hc
    have hpos : 0 < early + ms.count .cancel := by
      rcases hc with hc | hc
      · omega
      · have := List.count_pos_iff.2 hc
        omega
    exact hs'.outcome_of_cancelled (by omega)
  · intro hd hc
    obtain ⟨he, hm⟩ := not_or.1 hc
    have hm : ms.count .cancel = 0 := List.count_eq_zero.2 hm
    have hg' : h'.generation = h.generation := by omega
    have hp := hs'.painted_perm hd hg'
    have hl := hp.length_eq
    rw [List.length_map, List.length_range] at hl
    exact ⟨⟨_, hs'.outcome_of_uncancelled hd hg', render_of_accepted accepted⟩, hp, by rw [hs'.done, hs'.total, hl]⟩

/-- Two rows at the same time, the lower one first. -/
theorem whole_of_two_rows :
    let d : Drawing Float := ⟨.standard, ⟨1, 2⟩, ⟨0.5⟩⟩
    let ms : List RenderMove := [.row (.start 1 0), .row (.start 0 1), .row (.finish 1 0), .row (.finish 0 1)]
    d.size.Accepted ∧ ∃ begun r h', d.begin 0 .initial = .ok begun ∧ ms.foldl Run.move begun = (r, h') ∧
      r.isDrained = true ∧ (∃ picture, r.outcome h' = .ok picture ∧ d.render = .ok picture) ∧ h'.done = h'.total := by
  intro d ms
  have accepted : d.size.Accepted := by decide
  obtain ⟨begun, r, h', hb, hm, -, -, -, -, -, -, hw⟩ := whole_or_cancelled accepted .initial 0 ms
  have hd : r.isDrained = true := by
    rw [begin_of_accepted accepted] at hb
    cases hb
    exact (congrArg (fun state => state.1.isDrained) hm).symm
  obtain ⟨hp, -, ht⟩ := hw hd (by decide)
  exact ⟨accepted, begun, r, h', hb, hm, hd, hp, ht⟩

end Drawing

end DomainColoring
