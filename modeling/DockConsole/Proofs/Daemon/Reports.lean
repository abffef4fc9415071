import DockConsole.Proofs.Daemon.Retries

/-!
What an error tells of the attempts that failed.

A request that is given up on is told of attempt by attempt. An attempt that ends the others by a
refusal or by an answer that cannot be read is all that its error tells of, whatever failed before
it. So lines are missing exactly where such an attempt was not the first one.
-/

namespace DockConsole

namespace Outcome

/-- No answer to work with came of it. -/
def Fails (d : Daemon) (r : Request) : Outcome → Prop
  | .failed .. => True
  | .answered _ _ (.unreadable _) => True
  | .answered status reason (.json _) => (d.objection r status reason).isSome

/-- The line that tells of a failed attempt. A lack of connection or time is told of by what failed
and what it said, anything else by what it said. -/
def report (d : Daemon) (r : Request) (o : Outcome) : Text :=
  if o.Transient then o.line
  else
    match o with
    | .failed _ text => text
    | .answered status reason body =>
      match d.objection r status reason, body with
      | some line, _ => line
      | none, .json _ => []
      | none, .unreadable why => why

lemma Transient.fails {o : Outcome} (h : o.Transient) (d : Daemon) (r : Request) : o.Fails d r := by
  cases o with
  | failed => trivial
  | answered => exact h.elim

end Outcome

namespace Daemon

/-- An error that an outcome settles tells of nothing but that outcome. -/
lemma Settles.told {d : Daemon} {r : Request} {o : Outcome} {e : FetchError} (ho : ¬ o.Transient)
    (h : Settles d r o (.error (.fetch e))) : o.Fails d r ∧ e.attempts = [o.report d r] := by
  unfold Outcome.report
  rw [if_neg ho]
  cases h with
  | @refused status reason line body _ objected _ attempts =>
    have hfails : (Outcome.answered status reason body).Fails d r := by
      cases body with
      | json => exact Option.isSome_of_eq_some objected
      | unreadable => trivial
    exact ⟨hfails, by simp only [attempts, objected]⟩
  | unreadable calm _ attempts => exact ⟨trivial, by simp only [attempts, calm]⟩
  | badValue _ _ attempts => exact ⟨trivial, attempts⟩

/-- The requests that went out. -/
def sent (events : List Event) : List Request := events.filterMap Event.request?

lemma sent_rounds (r : Request) (net : Network) (first : Float) (count : ℕ) :
    sent (rounds r net first count) = List.replicate count r := by
  induction count generalizing net first with
  | zero => rfl
  | succ count ih =>
    have hfirst : sent [.request r, retryNote (net.outcome r 0).line first, .pause first] = [r] :=
      rfl
    unfold sent at hfirst ih ⊢
    rw [rounds_succ, List.filterMap_append, hfirst, ih]
    rfl

lemma sent_rounds_append (r : Request) (net : Network) (first : Float) (count : ℕ)
    {events : List Event} (h : sent events = [r]) :
    sent (rounds r net first count ++ events) = List.replicate (count + 1) r := by
  have hrounds := sent_rounds r net first count
  unfold sent at hrounds h ⊢
  rw [List.filterMap_append, hrounds, h, List.replicate_succ']

/-- One attempt, or several that all met with a lack of connection or time. -/
def Uniform (failures : List Outcome) : Prop :=
  failures.length = 1 ∨ ∀ o ∈ failures, o.Transient

lemma uniform_concat_iff {earlier : List Outcome} (h : ∀ o ∈ earlier, o.Transient) (last : Outcome) :
    Uniform (earlier ++ [last]) ↔ earlier = [] ∨ last.Transient := by
  unfold Uniform
  constructor
  · rintro (hone | hall)
    · exact .inl (by simpa using hone)
    · exact .inr (hall last (by simp))
  · rintro (rfl | hlast)
    · exact .inl rfl
    · refine .inr fun o ho => ?_
      rcases List.mem_append.mp ho with ho | ho
      · exact h o ho
      · exact List.mem_singleton.mp ho ▸ hlast

/-- What lines there are, if the last attempt is told of alone unless it failed as those before. -/
lemma told_iff {earlier : List Outcome} {last : Outcome} {report : Outcome → Text}
    {lines : List Text} (h : ∀ o ∈ earlier, o.Transient)
    (hlines : lines = if last.Transient then (earlier ++ [last]).map report else [report last]) :
    (lines.length = (earlier ++ [last]).length ↔ Uniform (earlier ++ [last])) ∧
      (Uniform (earlier ++ [last]) → lines = (earlier ++ [last]).map report) ∧
      (¬ Uniform (earlier ++ [last]) → lines = [report last]) := by
  rw [uniform_concat_iff h]
  by_cases hlast : last.Transient
  · rw [if_pos hlast] at hlines
    simp [hlines, hlast]
  · rw [if_neg hlast] at hlines
    simp only [hlines, hlast, or_false, List.length_append, List.length_singleton]
    refine ⟨?_, fun hnil => ?_, fun _ => trivial⟩
    · rw [← List.length_eq_zero_iff]
      omega
    · rw [hnil]
      rfl

/-- The attempts that an error ends: those before the last one failed for want of a connection or of
time, and are told of only if the last one did too. -/
lemma exists_failures (d : Daemon) (hd : 0 ≤ d.retries) (path : Text)
    (params : Option (List (Text × Text))) (net : Network) {e : FetchError}
    (he : (d.fetch path params net).result = .error (.fetch e)) :
    let r : Request := ⟨d.host ++ path, params, d.timeout⟩
    ∃ earlier last, earlier ++ [last] = (List.range (earlier.length + 1)).map (net.outcome r) ∧
      sent (d.fetch path params net).events = List.replicate (earlier.length + 1) r ∧
      (∀ o ∈ earlier, o.Transient) ∧ last.Fails d r ∧
      e.attempts = if last.Transient then (earlier ++ [last]).map (Outcome.report d r)
        else [last.report d r] := by
  intro r
  set o := net.outcome r
  rw [fetch_eq_attempt d hd] at he ⊢
  obtain ⟨last, hle, hretried, hstops⟩ := exists_last d r net d.backoff d.retries.toNat
  have hfailures : (List.range last).map o ++ [o last] = (List.range (last + 1)).map o := by
    rw [List.range_succ, List.map_append, List.map_singleton]
  have hearlier : ∀ a ∈ (List.range last).map o, a.Transient := by
    intro a ha
    obtain ⟨i, hi, rfl⟩ := List.mem_map.mp ha
    exact (hretried i (List.mem_range.mp hi)).1
  refine ⟨(List.range last).map o, o last, ?_⟩
  rw [List.length_map, List.length_range]
  rcases hstops with h | ⟨h, rfl⟩ | ⟨h, hmore, fault, hpause⟩
  · obtain ⟨result, hsettles, hattempt⟩ :=
      attempt_of_settled (Nat.lt_succ_of_le hle) hretried h []
    rw [hattempt] at he ⊢
    obtain rfl : result = .error (.fetch e) := he
    obtain ⟨hfails, htold⟩ := hsettles.told h
    refine ⟨hfailures, sent_rounds_append r net d.backoff last rfl, hearlier, hfails, ?_⟩
    rw [if_neg h, htold]
  · -- given up on: all the attempts allowed were made
    have hall : ∀ i < d.retries.toNat + 1, (o i).Transient := by
      intro i hi
      rcases Nat.lt_succ_iff_lt_or_eq.mp hi with hi | rfl
      · exact (hretried i hi).1
      · exact h
    rw [attempt_of_exhausted hretried h] at he ⊢
    obtain rfl := Trouble.fetch.inj (Except.error.inj he)
    refine ⟨hfailures, sent_rounds_append r net d.backoff _ rfl, hearlier, h.fails d r, ?_⟩
    rw [if_pos h, hfailures, List.map_map]
    exact List.map_congr_left fun i hi => (if_pos (hall i (List.mem_range.mp hi))).symm
  · -- a pause that cannot be made is no error of this kind
    rw [attempt_of_unpaused (Nat.succ_lt_succ hmore) hretried h hpause] at he
    exact absurd (Except.error.inj he) (by rintro ⟨⟩)

/-- **Lines of an error**: all attempts of a request that ends in an error have failed. The error has
a line for each of them, in order, exactly if there was only one or none met with more than a lack of
connection or time. Otherwise it tells of the last one alone. -/
theorem attempts_told_iff (d : Daemon) (hd : 0 ≤ d.retries) (path : Text)
    (params : Option (List (Text × Text))) (net : Network) {e : FetchError}
    (he : (d.fetch path params net).result = .error (.fetch e)) :
    let r : Request := ⟨d.host ++ path, params, d.timeout⟩
    let requests := sent (d.fetch path params net).events
    let failures := (List.range requests.length).map (net.outcome r)
    requests = List.replicate failures.length r ∧ (∀ o ∈ failures, o.Fails d r) ∧
      (e.attempts.length = failures.length ↔ Uniform failures) ∧
      (Uniform failures → e.attempts = failures.map (Outcome.report d r)) ∧
      (¬ Uniform failures → ∃ o, failures.getLast? = some o ∧ e.attempts = [o.report d r]) := by
  intro r requests failures
  obtain ⟨earlier, last, houtcomes, hsent, htransient, hfails, htold⟩ :=
    exists_failures d hd path params net he
  have hrequests : requests = List.replicate (earlier.length + 1) r := hsent
  have hfailures : failures = earlier ++ [last] := by
    simp only [failures, hrequests, List.length_replicate]
    exact houtcomes.symm
  have hlength : failures.length = earlier.length + 1 := by simp [hfailures]
  obtain ⟨hcount, hall, hone⟩ := told_iff htransient htold
  rw [← hfailures] at hcount hall hone
  refine ⟨hlength ▸ hrequests, fun o ho => ?_, hcount, hall, fun h => ⟨last, ?_, hone h⟩⟩
  · rw [hfailures] at ho
    rcases List.mem_append.mp ho with ho | ho
    · exact (htransient o ho).fails d r
    · exact List.mem_singleton.mp ho ▸ hfails
  · rw [hfailures, List.getLast?_append]
    rfl

/-- Two lacks of time and a refusal: three requests, and a line about the last one. -/
theorem attempts_told_of_refusal :
    let d : Daemon := { host := ['h'] }
    let r : Request := { url := "h/p".toList, timeout := {} }
    let failures : List Outcome :=
      [.failed .timeout "slow".toList, .failed .readTimeout "slow".toList,
       .answered 500 "Oops".toList (.json .null)]
    let reply := d.fetch "/p".toList none { queue := failures }
    let e : FetchError := .refused 500 "Oops".toList "h/p".toList ["500 Oops".toList]
    (0 ≤ d.retries ∧ reply.result = .error (.fetch e)) ∧ (sent reply.events).length = 3 ∧
      e.attempts.length ≠ 3 ∧ ∃ o, failures.getLast? = some o ∧ e.attempts = [o.report d r] := by
  intro d r failures reply e
  have hresult : reply.result = .error (.fetch e) := rfl
  have hmixed : ¬ Uniform failures := by
    unfold Uniform
    decide
  obtain ⟨-, -, hcount, -, hlast⟩ :=
    attempts_told_iff d (by decide) "/p".toList none { queue := failures } hresult
  exact ⟨⟨by decide, hresult⟩, rfl, fun h => hmixed (hcount.mp h), hlast hmixed⟩

/-- A lack of time and a refusal are two failed attempts with one line. -/
theorem attempts_not_always_told :
    ¬ ∀ (d : Daemon) (path : Text) (params : Option (List (Text × Text))) (net : Network)
      (e : FetchError), 0 ≤ d.retries → (d.fetch path params net).result = .error (.fetch e) →
      e.attempts.length = (sent (d.fetch path params net).events).length := by
  intro h
  have hlines := h { host := ['h'] } "/p".toList none
    { queue := [.failed .timeout "slow".toList, .answered 500 "Oops".toList (.json .null)] }
    (.refused 500 "Oops".toList "h/p".toList ["500 Oops".toList]) (by decide) rfl
  have htwo : (1 : ℕ) = 2 := hlines
  exact absurd htwo (by decide)

end Daemon

end DockConsole
