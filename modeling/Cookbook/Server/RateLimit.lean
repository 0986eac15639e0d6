import Cookbook.Library.Pacing
import Cookbook.Server.Machine

/-!
# The rate limit

`check_rate_limit` counts the requests of a subject in windows of a minute, each of which starts with
the first request behind the last one. The documented window slides: the two agree where no burst
around the boundary of two windows is larger than the limit.
-/
namespace Cookbook.Server

open Library.Text Library.Pacing

/-! ## Histories -/

/-- A request with a verified token. -/
structure RateRequest where
  /-- `time(NULL)` -/
  time : Int
  /-- `claims->sub` -/
  sub : Bytes
  /-- The claims have room for a subject of 127 bytes. -/
  fits : sub.length ≤ 127

/-- The requests that `check_rate_limit` lets through, one after the other. -/
def admitted (limit : Int) : List RateBucket → List RateRequest → List RateRequest
  | _, [] => []
  | buckets, request :: requests =>
    let counted := countRequest buckets limit request.time request.sub
    if counted.1 then admitted limit counted.2 requests
    else request :: admitted limit counted.2 requests

/-- The times of the requests of a subject. -/
def timesOf (sub : Bytes) (requests : List RateRequest) : List Int :=
  (requests.filter (·.sub == sub)).map (·.time)

/-- In no interval of 60 seconds more requests of a subject are let through than the limit. -/
def KeepsRate (limit : Int) (sub : Bytes) (requests : List RateRequest) : Prop :=
  AtMost 60 limit.toNat (timesOf sub (admitted limit [] requests))

/-- The requests of a subject make no burst around a boundary: of the requests that count in a window
and in the next one, none is less than 60 seconds in front of the one that the limit's number of places
behind it. Requests without a subject have no windows. -/
def NoBurst (limit : Nat) (sub : Bytes) (times : List Int) : Prop :=
  if sub = [] then Spread 60 limit times
  else (windows 60 times).IsChain fun first second =>
    Spread 60 limit (first.take limit ++ second.take limit)

/-! ## One request -/

/-- The bucket of a subject. -/
def bucketOf (sub : Bytes) (buckets : List RateBucket) : Option RateBucket :=
  buckets.find? (·.sub == sub)

/-- A bucket that counts keeps its subject. -/
theorem RateBucket.counted_sub (bucket : RateBucket) (now : Int) :
    (bucket.counted now).sub = bucket.sub := by
  unfold RateBucket.counted
  split <;> rfl

/-- The bucket of a subject counts its request. -/
theorem countBucket_own (now : Int) (sub : Bytes) (buckets : List RateBucket) :
    (bucketOf sub buckets = none → countBucket now sub buckets = none) ∧
      ∀ bucket, bucketOf sub buckets = some bucket → ∃ after,
        countBucket now sub buckets = some ((bucket.counted now).count, after) ∧
          bucketOf sub after = some (bucket.counted now) := by
  induction buckets with
  | nil => simp [bucketOf, countBucket]
  | cons first buckets ih =>
    by_cases own : first.sub = sub
    · have here : bucketOf sub (first :: buckets) = some first := by simp [bucketOf, own]
      have later : bucketOf sub (first.counted now :: buckets) = some (first.counted now) := by
        simp [bucketOf, first.counted_sub, own]
      have step : countBucket now sub (first :: buckets) =
          some ((first.counted now).count, first.counted now :: buckets) := if_pos own
      rw [here, step]
      refine ⟨nofun, ?_⟩
      intro bucket same
      rw [← Option.some.inj same]
      exact ⟨_, rfl, later⟩
    · have skip : ∀ rest, bucketOf sub (first :: rest) = bucketOf sub rest := by
        intro rest
        simp [bucketOf, own]
      have step : countBucket now sub (first :: buckets) =
          (countBucket now sub buckets).map fun counted => (counted.1, first :: counted.2) :=
        if_neg own
      rw [skip, step]
      apply And.intro
      · intro none
        rw [ih.1 none, Option.map_none]
      · intro bucket found
        obtain ⟨after, counts, later⟩ := ih.2 bucket found
        refine ⟨first :: after, ?_, ?_⟩
        · rw [counts, Option.map_some]
        · rw [skip]
          exact later

/-- The bucket of another subject stays. -/
theorem countBucket_other {now : Int} {sub other : Bytes} (differ : other ≠ sub)
    (buckets : List RateBucket) :
    ∀ counted, countBucket now other buckets = some counted →
      bucketOf sub counted.2 = bucketOf sub buckets := by
  induction buckets with
  | nil => exact nofun
  | cons first buckets ih =>
    intro counted step
    unfold countBucket at step
    by_cases own : first.sub = other
    · rw [if_pos own] at step
      have foreign : ¬ first.sub = sub := fun same => differ (own.symm.trans same)
      rw [← Option.some.inj step]
      simp [bucketOf, first.counted_sub, foreign]
    · rw [if_neg own] at step
      have rest := Option.map_eq_some_iff.mp step
      have tail := ih rest.choose rest.choose_spec.1
      rw [← rest.choose_spec.2]
      unfold bucketOf at tail ⊢
      rw [List.find?_cons, List.find?_cons, tail]

section Limited

variable {limit : Int} {sub : Bytes}

/-- A request of a subject with a bucket is counted there. -/
theorem countRequest_own (positive : 0 < limit) (named : sub ≠ []) (now : Int)
    {buckets : List RateBucket} {bucket : RateBucket} (found : bucketOf sub buckets = some bucket) :
    (countRequest buckets limit now sub).1 = decide (limit < (bucket.counted now).count) ∧
      bucketOf sub (countRequest buckets limit now sub).2 = some (bucket.counted now) := by
  have step := ((countBucket_own now sub buckets).2 bucket found).choose_spec
  have applies : ¬ (limit ≤ 0 ∨ sub = []) := by
    intro either
    rcases either with none | empty
    · omega
    · exact named empty
  unfold countRequest
  rw [if_neg applies, step.1]
  exact ⟨rfl, step.2⟩

/-- The first request of a subject opens a bucket. -/
theorem countRequest_new (positive : 0 < limit) (named : sub ≠ []) (fits : sub.length ≤ 127)
    (now : Int) {buckets : List RateBucket} (missing : bucketOf sub buckets = none) :
    (countRequest buckets limit now sub).1 = false ∧
      bucketOf sub (countRequest buckets limit now sub).2 = some ⟨sub, now, 1⟩ := by
  have step := (countBucket_own now sub buckets).1 missing
  have applies : ¬ (limit ≤ 0 ∨ sub = []) := by
    intro either
    rcases either with none | empty
    · omega
    · exact named empty
  have whole : sub.take 127 = sub := List.take_of_length_le fits
  unfold countRequest
  rw [if_neg applies, step, whole]
  refine ⟨?_, ?_⟩
  · exact decide_eq_false (by omega)
  · simp [bucketOf]

/-- A request of another subject leaves the bucket. -/
theorem countRequest_other {other : Bytes} (fits : other.length ≤ 127) (differ : other ≠ sub)
    (now : Int) (buckets : List RateBucket) :
    bucketOf sub (countRequest buckets limit now other).2 = bucketOf sub buckets := by
  have whole : other.take 127 = other := List.take_of_length_le fits
  unfold countRequest
  split
  · rfl
  · cases counts : countBucket now other buckets with
    | some counted => exact countBucket_other differ buckets counted counts
    | none => simp [bucketOf, whole, differ]

/-! ## A history -/

/-- The times of a history without the requests of others. -/
theorem timesOf_cons (request : RateRequest) (requests : List RateRequest) :
    timesOf sub (request :: requests) =
      if request.sub = sub then request.time :: timesOf sub requests
      else timesOf sub requests := by
  unfold timesOf
  rw [List.filter_cons]
  by_cases own : request.sub = sub
  · simp [own]
  · simp [own]

/-- What is let through behind an open window: the first requests of every window, up to the limit. -/
theorem admitted_window (positive : 0 < limit) (named : sub ≠ []) (requests : List RateRequest)
    {buckets : List RateBucket} {start : Int} {running : List Int}
    (found : bucketOf sub buckets = some ⟨sub, start, running.length⟩) :
    running.take limit.toNat ++ timesOf sub (admitted limit buckets requests) =
      ((windowsFrom 60 start running (timesOf sub requests)).map
        (List.take limit.toNat)).flatten := by
  induction requests generalizing buckets start running with
  | nil => simp [admitted, timesOf, windowsFrom]
  | cons request requests ih =>
    rw [timesOf_cons, admitted]
    by_cases own : request.sub = sub
    · have step := countRequest_own positive named request.time found
      rw [own, if_pos rfl]
      unfold windowsFrom
      by_cases fresh : 60 ≤ request.time - start
      · have count : RateBucket.counted ⟨sub, start, running.length⟩ request.time =
            ⟨sub, request.time, ([request.time] : List Int).length⟩ := by
          simp [RateBucket.counted, fresh]
        rw [count] at step
        have passes : (countRequest buckets limit request.time sub).1 = false := by
          rw [step.1]
          exact decide_eq_false (by simp; omega)
        have rest := ih step.2
        have one : [request.time].take limit.toNat = [request.time] :=
          List.take_of_length_le (by simp; omega)
        rw [one] at rest
        rw [if_pos fresh, passes, if_neg Bool.false_ne_true, timesOf_cons, if_pos own,
          List.map_cons, List.flatten_cons, ← rest, List.singleton_append]
      · have count : RateBucket.counted ⟨sub, start, running.length⟩ request.time =
            ⟨sub, start, (running ++ [request.time]).length⟩ := by
          simp [RateBucket.counted, fresh]
        rw [count] at step
        have rest := ih step.2
        rw [if_neg fresh, ← rest, step.1]
        by_cases blocked : limit < ((running ++ [request.time]).length : Int)
        · have full : limit.toNat ≤ running.length := by
            rw [List.length_append, List.length_singleton] at blocked
            omega
          rw [if_pos (decide_eq_true blocked), List.take_append_of_le_length full]
        · have room : running.length + 1 ≤ limit.toNat := by
            rw [List.length_append, List.length_singleton] at blocked
            omega
          have whole : running.take limit.toNat = running := List.take_of_length_le (by omega)
          have longer : (running ++ [request.time]).take limit.toNat = running ++ [request.time] :=
            List.take_of_length_le (by rw [List.length_append, List.length_singleton]; omega)
          rw [if_neg (by simpa using blocked), timesOf_cons, if_pos own, whole, longer,
            List.append_assoc, List.singleton_append]
    · have kept := @countRequest_other limit sub _ request.fits own request.time buckets
      rw [if_neg own, ← ih (kept.trans found)]
      split
      · rfl
      · rw [timesOf_cons, if_neg own]

/-- What is let through of a subject without a bucket. -/
theorem admitted_windows (positive : 0 < limit) (named : sub ≠ []) (requests : List RateRequest)
    {buckets : List RateBucket} (missing : bucketOf sub buckets = none) :
    timesOf sub (admitted limit buckets requests) =
      ((windows 60 (timesOf sub requests)).map (List.take limit.toNat)).flatten := by
  induction requests generalizing buckets with
  | nil => rfl
  | cons request requests ih =>
    rw [timesOf_cons, admitted]
    by_cases own : request.sub = sub
    · have short : sub.length ≤ 127 := own ▸ request.fits
      have step := countRequest_new positive named short request.time missing
      have one : [request.time].take limit.toNat = [request.time] :=
        List.take_of_length_le (by simp; omega)
      have rest := @admitted_window limit sub positive named requests _ request.time [request.time]
        step.2
      rw [one, List.singleton_append] at rest
      rw [own, step.1, if_neg Bool.false_ne_true, if_pos rfl, timesOf_cons, if_pos own, rest]
      rfl
    · have kept := @countRequest_other limit sub _ request.fits own request.time buckets
      rw [if_neg own, ← ih (kept.trans missing)]
      split
      · rfl
      · rw [timesOf_cons, if_neg own]

/-- Requests without a subject are all let through. -/
theorem admitted_nameless (buckets : List RateBucket) (requests : List RateRequest) :
    timesOf [] (admitted limit buckets requests) = timesOf [] requests := by
  induction requests generalizing buckets with
  | nil => rfl
  | cons request requests ih =>
    rw [timesOf_cons, admitted]
    by_cases own : request.sub = []
    · have passes : (countRequest buckets limit request.time request.sub).1 = false := by
        unfold countRequest
        rw [if_pos (.inr own)]
      rw [passes, if_neg Bool.false_ne_true, if_pos own, timesOf_cons, if_pos own, ih]
    · rw [if_neg own]
      split
      · exact ih _
      · rw [timesOf_cons, if_neg own]
        exact ih _

end Limited

/-- The limit holds in every interval of 60 seconds exactly when no burst of the subject's requests
around the boundary of two windows is larger. -/
theorem rateLimit_keepsRate_iff {limit : Int} (positive : 0 < limit) (sub : Bytes)
    {requests : List RateRequest} (ordered : requests.Pairwise (·.time ≤ ·.time)) :
    KeepsRate limit sub requests ↔ NoBurst limit.toNat sub (timesOf sub requests) := by
  have some : 0 < limit.toNat := by omega
  have sorted : (timesOf sub requests).Pairwise (· ≤ ·) := by
    unfold timesOf
    rw [List.pairwise_map]
    exact ordered.sublist List.filter_sublist
  unfold KeepsRate NoBurst
  by_cases nameless : sub = []
  · subst nameless
    rw [if_pos rfl, admitted_nameless, atMost_iff_spread some sorted]
  · have minute : (0 : Int) < 60 := by omega
    rw [if_neg nameless, admitted_windows positive nameless requests rfl,
      atMost_windows_iff minute some sorted]

/-- A request of `alice` at a time. -/
def aliceAt (time : Int) : RateRequest := ⟨time, ascii "alice", by decide⟩

/-- One request every half minute keeps a limit of two. -/
theorem rateLimit_keepsRate_steady :
    KeepsRate 2 (ascii "alice") [aliceAt 0, aliceAt 30, aliceAt 60, aliceAt 90] := by
  refine (rateLimit_keepsRate_iff (by decide) _ (by simp [aliceAt])).mpr ?_
  have times : timesOf (ascii "alice") [aliceAt 0, aliceAt 30, aliceAt 60, aliceAt 90] =
      [0, 30, 60, 90] := by decide
  have cut : windows 60 [0, 30, 60, 90] = [[0, 30], [60, 90]] := by decide
  have named : ¬ ascii "alice" = [] := by decide
  unfold NoBurst
  rw [if_neg named, times, cut, List.isChain_cons_cons]
  refine ⟨?_, List.IsChain.singleton _⟩
  intro i early late here there
  have bound : i + 2 < 4 := (List.getElem?_eq_some_iff.mp there).choose
  have place : i = 0 ∨ i = 1 := by omega
  rcases place with rfl | rfl
  · cases here
    cases there
    decide
  · cases here
    cases there
    decide

/-- Two requests at the end of a window and two at the start of the next one are four in two
seconds. -/
theorem rateLimit_burst :
    ¬ KeepsRate 2 (ascii "alice") [aliceAt 0, aliceAt 59, aliceAt 60, aliceAt 61] := by
  intro keeps
  have passed : timesOf (ascii "alice") (admitted 2 [] [aliceAt 0, aliceAt 59, aliceAt 60,
      aliceAt 61]) = [0, 59, 60, 61] := by decide
  have most := keeps 59
  rw [passed] at most
  exact absurd most (by decide)

end Cookbook.Server
