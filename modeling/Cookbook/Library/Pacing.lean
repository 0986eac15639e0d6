import Mathlib.Data.List.Chain

/-!
# Events in time

A history is the list of the times of its events, in their order. No interval of a length holds more
than a number of events exactly when every event is at least that length in front of the one that many
places behind it; and a history cut into windows that each start a full length behind the last one is
paced when every window is paced with its neighbour.
-/
namespace Library.Pacing

/-- The number of events in the interval of a length from a start. -/
def inside (span start : Int) (times : List Int) : Nat :=
  times.countP fun time => decide (start ≤ time) && decide (time < start + span)

/-- No interval of a length holds more than a number of events. -/
def AtMost (span : Int) (limit : Nat) (times : List Int) : Prop :=
  ∀ start, inside span start times ≤ limit

/-- Every event is a length in front of the one that a number of places behind it. -/
def Spread (span : Int) (limit : Nat) (times : List Int) : Prop :=
  ∀ i early late, times[i]? = some early → times[i + limit]? = some late → early + span ≤ late

/-- The rest of a spread history is spread. -/
theorem Spread.tail {span : Int} {limit : Nat} {time : Int} {times : List Int}
    (spread : Spread span limit (time :: times)) : Spread span limit times := by
  intro i early late first last
  have shift : i + 1 + limit = i + limit + 1 := by omega
  refine spread (i + 1) early late ?_ ?_
  · rw [List.getElem?_cons_succ]
    exact first
  · rw [shift, List.getElem?_cons_succ]
    exact last

/-- A history is paced when it is spread. -/
theorem atMost_iff_spread {span : Int} {limit : Nat} (positive : 0 < limit) {times : List Int}
    (ordered : times.Pairwise (· ≤ ·)) : AtMost span limit times ↔ Spread span limit times := by
  constructor
  · intro paced i early late first last
    by_contra close
    -- The events from one to the other lie in one interval.
    have lateHere := List.getElem?_eq_some_iff.mp last
    have bound := lateHere.choose
    have run : ∀ time ∈ (times.drop i).take (limit + 1),
        (decide (early ≤ time) && decide (time < early + span)) = true := by
      intro time member
      have place := List.mem_iff_getElem?.mp member
      have index := place.choose_spec
      generalize place.choose = k at index
      have small : k < limit + 1 := by
        by_contra large
        rw [List.getElem?_take, if_neg large] at index
        cases index
      rw [List.getElem?_take_of_lt small, List.getElem?_drop] at index
      have sorted := fun (a b : Nat) (x y : Int) (le : a ≤ b) (at_a : times[a]? = some x)
          (at_b : times[b]? = some y) => show x ≤ y by
        have ha := List.getElem?_eq_some_iff.mp at_a
        have hb := List.getElem?_eq_some_iff.mp at_b
        rw [← ha.choose_spec, ← hb.choose_spec]
        rcases Nat.lt_or_eq_of_le le with less | same
        · exact List.pairwise_iff_getElem.mp ordered a b _ _ less
        · subst same
          exact Int.le_refl _
      have low := sorted i (i + k) early time (by omega) first index
      have high := sorted (i + k) (i + limit) time late (by omega) index last
      simp only [Bool.and_eq_true, decide_eq_true_eq]
      omega
    have whole : inside span early ((times.drop i).take (limit + 1)) = limit + 1 := by
      unfold inside
      rw [List.countP_eq_length.mpr run, List.length_take, List.length_drop]
      omega
    have part : inside span early ((times.drop i).take (limit + 1)) ≤ inside span early times :=
      List.Sublist.countP_le ((List.take_sublist _ _).trans (List.drop_sublist _ _))
    have most := paced early
    omega
  · intro spread start
    induction times with
    | nil => simp [inside]
    | cons time times ih =>
      have rest := ih (List.pairwise_cons.mp ordered).2 spread.tail
      by_cases here : start ≤ time ∧ time < start + span
      · -- Behind this event at most `limit - 1` others are in the interval.
        have counted : inside span start (time :: times) = inside span start times + 1 := by
          unfold inside
          rw [List.countP_cons_of_pos (by simpa using here)]
        have parts : inside span start times = inside span start (times.take (limit - 1)) +
            inside span start (times.drop (limit - 1)) := by
          unfold inside
          rw [← List.countP_append, List.take_append_drop]
        have front : inside span start (times.take (limit - 1)) ≤ limit - 1 := by
          have length : inside span start (times.take (limit - 1)) ≤
              (times.take (limit - 1)).length := List.countP_le_length
          have short := List.length_take_le (limit - 1) times
          omega
        have behind : inside span start (times.drop (limit - 1)) = 0 := by
          unfold inside
          rw [List.countP_eq_zero]
          intro late member
          have place := List.mem_iff_getElem?.mp member
          have index := place.choose_spec
          generalize place.choose = k at index
          rw [List.getElem?_drop] at index
          -- The first event that many places behind is out of the interval, and so is what follows.
          have bound := (List.getElem?_eq_some_iff.mp index).choose
          have inRange : limit - 1 < times.length := by omega
          have next : (time :: times)[0 + limit]? = some times[limit - 1] := by
            have shift : 0 + limit = limit - 1 + 1 := by omega
            rw [shift, List.getElem?_cons_succ, List.getElem?_eq_getElem inRange]
          have far := spread 0 time times[limit - 1] rfl next
          have later : times[limit - 1] ≤ late := by
            have value := (List.getElem?_eq_some_iff.mp index).choose_spec
            rw [← value]
            rcases Nat.eq_zero_or_pos k with zero | beyond
            · subst zero
              exact Int.le_refl _
            · exact List.pairwise_iff_getElem.mp (List.pairwise_cons.mp ordered).2 _ _ inRange _
                (by omega)
          simp only [Bool.and_eq_true, decide_eq_true_eq]
          omega
        omega
      · have counted : inside span start (time :: times) = inside span start times := by
          unfold inside
          rw [List.countP_cons_of_neg (by simpa using here)]
        omega

/-! ## Fixed windows -/

/-- The windows of a history, the first of which is open: an event a length behind the start of the
window starts a new one. -/
def windowsFrom (span start : Int) (running : List Int) : List Int → List (List Int)
  | [] => [running]
  | time :: times =>
    if span ≤ time - start then running :: windowsFrom span time [time] times
    else windowsFrom span start (running ++ [time]) times

/-- The windows of a history: the first event starts the first one. -/
def windows (span : Int) : List Int → List (List Int)
  | [] => []
  | time :: times => windowsFrom span time [time] times

example : windows 60 [0, 30, 59, 60, 119, 125] = [[0, 30, 59], [60, 119], [125]] := by decide

/-- The windows hold the events in their order. -/
theorem windowsFrom_flatten (span start : Int) (running times : List Int) :
    (windowsFrom span start running times).flatten = running ++ times := by
  induction times generalizing start running with
  | nil => simp [windowsFrom]
  | cons time times ih =>
    unfold windowsFrom
    split
    · rw [List.flatten_cons, ih, List.singleton_append]
    · rw [ih, List.append_assoc, List.singleton_append]

/-- Every event is a length in front of the window behind the next one. -/
def Apart (span : Int) : List (List Int) → Prop
  | first :: second :: rest =>
    (∀ early ∈ first, ∀ late ∈ rest.flatten, early + span ≤ late) ∧ Apart span (second :: rest)
  | _ => True

/-- What is left of windows that are apart is apart. -/
theorem Apart.take {span : Int} (limit : Nat) {cut : List (List Int)} (apart : Apart span cut) :
    Apart span (cut.map (List.take limit)) := by
  induction cut with
  | nil => trivial
  | cons first cut ih =>
    cases cut with
    | nil => trivial
    | cons second rest =>
      refine ⟨?_, ih apart.2⟩
      intro early front late behind
      refine apart.1 early (List.mem_of_mem_take front) late ?_
      have window := List.mem_flatten.mp behind
      have cutWindow := window.choose_spec
      generalize window.choose = kept at cutWindow
      have whole := List.mem_map.mp cutWindow.1
      have same := whole.choose_spec
      refine List.mem_flatten.mpr ⟨whole.choose, same.1, ?_⟩
      have inKept := cutWindow.2
      rw [← same.2] at inKept
      exact List.mem_of_mem_take inKept

/-- Behind the open window every event is a length behind its start. -/
theorem windowsFrom_behind {span start : Int} {running times : List Int}
    (ordered : times.Pairwise (· ≤ ·)) :
    ∀ late ∈ ((windowsFrom span start running times).drop 1).flatten, start + span ≤ late := by
  induction times generalizing running with
  | nil => simp [windowsFrom]
  | cons time times ih =>
    have sorted := List.pairwise_cons.mp ordered
    unfold windowsFrom
    split
    · intro late member
      rw [List.drop_one, List.tail_cons, windowsFrom_flatten, List.singleton_append] at member
      rcases List.mem_cons.mp member with rfl | later
      · omega
      · have after := sorted.1 late later
        omega
    · exact ih sorted.2

/-- There is always a window. -/
theorem windowsFrom_cons (span start : Int) (running times : List Int) :
    ∃ first rest, windowsFrom span start running times = first :: rest := by
  induction times generalizing start running with
  | nil => exact ⟨running, [], rfl⟩
  | cons time times ih =>
    unfold windowsFrom
    split
    · exact ⟨_, _, rfl⟩
    · exact ih _ _

/-- The windows of an ordered history are apart. -/
theorem windowsFrom_apart {span start : Int} (wide : 0 < span) {running times : List Int}
    (ordered : times.Pairwise (· ≤ ·)) (inWindow : ∀ time ∈ running, time < start + span) :
    Apart span (windowsFrom span start running times) := by
  induction times generalizing start running with
  | nil => trivial
  | cons time times ih =>
    have sorted := List.pairwise_cons.mp ordered
    unfold windowsFrom
    by_cases fresh : span ≤ time - start
    · rw [if_pos fresh]
      have own : ∀ other ∈ [time], other < time + span := by
        intro other member
        rw [List.mem_singleton] at member
        omega
      have later := ih sorted.2 own
      have behind := @windowsFrom_behind span time [time] times sorted.2
      have shape := windowsFrom_cons span time [time] times
      have next := shape.choose_spec.choose_spec
      rw [next] at later behind ⊢
      refine ⟨?_, later⟩
      intro early front late member
      have first := inWindow early front
      have second := behind late member
      omega
    · rw [if_neg fresh]
      refine ih sorted.2 ?_
      intro other member
      rcases List.mem_append.mp member with before | here
      · exact inWindow other before
      · rw [List.mem_singleton] at here
        omega

/-- Two short windows and what is far behind the first of them are spread when each neighbour is. -/
theorem spread_append {span : Int} {limit : Nat} {first second rest : List Int}
    (short : first.length ≤ limit) (far : ∀ early ∈ first, ∀ late ∈ rest, early + span ≤ late) :
    Spread span limit (first ++ (second ++ rest)) ↔
      Spread span limit (first ++ second) ∧ Spread span limit (second ++ rest) := by
  constructor
  · intro spread
    constructor
    · intro i early late here there
      have bound := (List.getElem?_eq_some_iff.mp there).choose
      refine spread i early late ?_ ?_
      · rw [← List.append_assoc, List.getElem?_append_left (by omega)]
        exact here
      · rw [← List.append_assoc, List.getElem?_append_left bound]
        exact there
    · intro i early late here there
      have shift : first.length + i + limit = first.length + (i + limit) := by omega
      refine spread (first.length + i) early late ?_ ?_
      · rw [List.getElem?_append_right (by omega), Nat.add_sub_cancel_left]
        exact here
      · rw [shift, List.getElem?_append_right (by omega), Nat.add_sub_cancel_left]
        exact there
  · intro both i early late here there
    by_cases inFirst : i < first.length
    · rw [List.getElem?_append_left inFirst] at here
      by_cases near : i + limit < (first ++ second).length
      · refine both.1 i early late ?_ ?_
        · rw [List.getElem?_append_left inFirst]
          exact here
        · rw [← List.append_assoc, List.getElem?_append_left near] at there
          exact there
      · rw [← List.append_assoc, List.getElem?_append_right (by omega)] at there
        exact far early (List.mem_of_getElem? here) late (List.mem_of_getElem? there)
    · rw [List.getElem?_append_right (by omega)] at here there
      have shift : i + limit - first.length = i - first.length + limit := by omega
      rw [shift] at there
      exact both.2 _ early late here there

/-- A history of no more events than the limit is spread. -/
theorem spread_short {span : Int} {limit : Nat} {times : List Int} (short : times.length ≤ limit) :
    Spread span limit times := by
  intro i early late _ there
  have bound := (List.getElem?_eq_some_iff.mp there).choose
  omega

/-- Short windows that are apart are spread when every window is with the next one. -/
theorem spread_flatten_iff {span : Int} {limit : Nat} {cut : List (List Int)}
    (apart : Apart span cut) (short : ∀ window ∈ cut, window.length ≤ limit) :
    Spread span limit cut.flatten ↔
      cut.IsChain fun first second => Spread span limit (first ++ second) := by
  induction cut with
  | nil => simp [Spread]
  | cons first cut ih =>
    have firstShort := short first List.mem_cons_self
    have restShort : ∀ window ∈ cut, window.length ≤ limit := fun window member =>
      short window (List.mem_cons_of_mem _ member)
    cases cut with
    | nil =>
      rw [List.flatten_cons, List.flatten_nil, List.append_nil]
      exact iff_of_true (spread_short firstShort) (List.IsChain.singleton _)
    | cons second rest =>
      have tail := ih apart.2 restShort
      rw [List.flatten_cons] at tail
      rw [List.flatten_cons, List.flatten_cons, spread_append firstShort apart.1, tail,
        List.isChain_cons_cons]

/-- The events that a limit lets through in each fixed window are paced exactly when no burst around a
boundary breaks the pace. -/
theorem atMost_windows_iff {span : Int} (wide : 0 < span) {limit : Nat} (positive : 0 < limit)
    {times : List Int} (ordered : times.Pairwise (· ≤ ·)) :
    AtMost span limit ((windows span times).map (List.take limit)).flatten ↔
      (windows span times).IsChain fun first second =>
        Spread span limit (first.take limit ++ second.take limit) := by
  have apart : Apart span (windows span times) := by
    cases times with
    | nil => trivial
    | cons time times =>
      refine windowsFrom_apart wide (List.pairwise_cons.mp ordered).2 ?_
      intro other member
      rw [List.mem_singleton] at member
      omega
  have flat : (windows span times).flatten = times := by
    cases times with
    | nil => rfl
    | cons time times => exact windowsFrom_flatten span time [time] times
  have kept : ((windows span times).map (List.take limit)).flatten.Sublist times := by
    have part : ∀ cut : List (List Int), (cut.map (List.take limit)).flatten.Sublist cut.flatten := by
      intro cut
      induction cut with
      | nil => exact List.Sublist.refl _
      | cons window cut ih => exact (List.take_sublist _ _).append ih
    have whole := part (windows span times)
    rwa [flat] at whole
  rw [atMost_iff_spread positive (ordered.sublist kept), spread_flatten_iff (apart.take limit),
    List.isChain_map]
  intro window member
  have same := (List.mem_map.mp member).choose_spec.2
  rw [← same]
  exact List.length_take_le _ _

end Library.Pacing
