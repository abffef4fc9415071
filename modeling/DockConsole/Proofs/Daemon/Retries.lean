import DockConsole.Daemon
import DockConsole.Daemon.Http
import Mathlib.Data.List.Basic
import Mathlib.Logic.Function.Iterate

/-!
How often a request is sent, and what ends it.

The outcomes that a network gives to a request, one after the other, decide all that is done about
it. The first one that is more than a lack of connection or time ends the attempts and alone decides
the result. If all attempts allowed meet with such a lack, the error tells of each of them. A pause
that cannot be made ends the attempts too.

Which answers are objected to, and which pauses can be made, is up to others.
-/

namespace DockConsole

/-! ### What a network has in store -/

namespace Network

/-- What the request gets when it is sent for the `i`-th time: first the outcomes queued ahead,
whatever they are, and then always the answer of a healthy daemon. -/
def outcome (n : Network) (r : Request) (i : ℕ) : Outcome := n.queue[i]?.getD (n.healthy r)

/-- The network once so many requests were sent. -/
def after (n : Network) (count : ℕ) : Network := { n with queue := n.queue.drop count }

variable (n : Network) (r : Request)

lemma after_after (i j : ℕ) : (n.after i).after j = n.after (i + j) := by
  simp only [after, List.drop_drop]

lemma outcome_after (i j : ℕ) : (n.after i).outcome r j = n.outcome r (i + j) := by
  simp only [outcome, after, List.getElem?_drop]
  rfl

lemma outcome_after_zero (i : ℕ) : (n.after i).outcome r 0 = n.outcome r i :=
  n.outcome_after r i 0

lemma outcome_after_one (i : ℕ) : (n.after 1).outcome r i = n.outcome r (i + 1) :=
  Nat.add_comm 1 i ▸ n.outcome_after r 1 i

lemma respond_eq : n.respond r = (n.outcome r 0, n.after 1) := by
  rcases n with ⟨_ | ⟨o, queue⟩, containers, details⟩ <;> rfl

end Network

/-! ### What an outcome decides -/

/-- For want of a connection or of time there is no answer. -/
def Outcome.Transient : Outcome → Prop
  | .failed f _ => f.family = .transient
  | .answered .. => False

instance : DecidablePred Outcome.Transient
  | .failed f _ => inferInstanceAs (Decidable (f.family = .transient))
  | .answered .. => inferInstanceAs (Decidable False)

/-- A failed attempt as it is told of: what failed, and what it said. -/
def Outcome.line : Outcome → Text
  | .failed f text => f.label ++ ": ".toList ++ text
  | .answered .. => []

namespace Daemon

variable {d : Daemon} {r : Request} {net : Network}

/-- What an outcome that ends the attempts makes of the request. An objection to a status is made to
an answer: without one, the handler of the objection is at a loss. -/
inductive Settles (d : Daemon) (r : Request) : Outcome → Except Trouble Json → Prop
  | read {status : Int} {reason : Text} {v : Json} (calm : d.objection r status reason = none) :
      Settles d r (.answered status reason (.json v)) (.ok v)
  | refused {status : Int} {reason line : Text} {body : Body} {e : FetchError}
      (objected : d.objection r status reason = some line)
      (message : e.message =
        "HTTP ".toList ++ Text.ofInt status ++ [' '] ++ reason ++ " for ".toList ++ r.url)
      (attempts : e.attempts = [line]) :
      Settles d r (.answered status reason body) (.error (.fetch e))
  | unreadable {status : Int} {reason why : Text} {e : FetchError}
      (calm : d.objection r status reason = none)
      (message : e.message = "Invalid JSON from ".toList ++ r.url) (attempts : e.attempts = [why]) :
      Settles d r (.answered status reason (.unreadable why)) (.error (.fetch e))
  | badValue {f : Fault} {text : Text} {e : FetchError} (bad : f.family = .badValue)
      (message : e.message = "Invalid JSON from ".toList ++ r.url) (attempts : e.attempts = [text]) :
      Settles d r (.failed f text) (.error (.fetch e))
  | passed {f : Fault} {text : Text} (other : f.family = .other) :
      Settles d r (.failed f text) (.error (.fault f text))
  | answerless {f : Fault} {text : Text} (status : f.family = .status) :
      Settles d r (.failed f text) (.error (.ofFault answerless))

lemma verdict_of_transient {o : Outcome} (h : o.Transient) : d.verdict r o = .again o.line := by
  cases o with
  | failed f text =>
    have hfamily : f.family = .transient := h
    simp only [verdict, hfamily]
    rfl
  | answered => exact h.elim

lemma verdict_of_not_transient (d : Daemon) (r : Request) {o : Outcome} (h : ¬ o.Transient) :
    ∃ result, d.verdict r o = .done result ∧ Settles d r o result := by
  cases o with
  | failed f text =>
    cases hfamily : f.family with
    | transient => exact absurd hfamily h
    | status => exact ⟨_, by simp only [verdict, hfamily], .answerless hfamily⟩
    | badValue =>
      exact ⟨.error (.fetch (.unreadable r.url [text])), by simp only [verdict, hfamily],
        .badValue hfamily rfl rfl⟩
    | other => exact ⟨_, by simp only [verdict, hfamily], .passed hfamily⟩
  | answered status reason body =>
    cases hline : d.objection r status reason with
    | some line =>
      exact ⟨.error (.fetch (.refused status reason r.url [line])), by simp only [verdict, hline],
        .refused hline rfl rfl⟩
    | none =>
      cases body with
      | json v => exact ⟨_, by simp only [verdict, hline], .read hline⟩
      | unreadable why =>
        exact ⟨.error (.fetch (.unreadable r.url [why])), by simp only [verdict, hline],
          .unreadable hline rfl rfl⟩

/-! ### What is objected to -/

/-- Answers are objected to for their status: not below 400, and always from there on, as far as there
are any statuses. -/
structure Objects (d : Daemon) : Prop where
  calm : ∀ (r : Request) (status : Int) (reason : Text), status < 400 →
    d.objection r status reason = none
  objected : ∀ (r : Request) (status : Int) (reason : Text), 400 ≤ status → status < 600 →
    ∃ line, d.objection r status reason = some line

lemma objects_of_http (h : d.objection = Http.objection) : d.Objects where
  calm r status reason hstatus := by
    rw [h, Http.objection, if_neg (by omega)]
  objected r status reason hbad hstatus := by
    rw [h, Http.objection, if_pos ⟨hbad, hstatus⟩]
    exact ⟨_, rfl⟩

/-- What the status of an answer makes of the request for `url`. -/
structure ByStatus (url : Text) (o : Outcome) (result : Except Trouble Json) : Prop where
  read : ∀ (status : Int) (reason : Text) (v : Json), o = .answered status reason (.json v) →
    status < 400 → result = .ok v
  unreadable : ∀ (status : Int) (reason why : Text), o = .answered status reason (.unreadable why) →
    status < 400 → ∃ e : FetchError, result = .error (.fetch e) ∧
      e.message = "Invalid JSON from ".toList ++ url
  refused : ∀ (status : Int) (reason : Text) (body : Body), o = .answered status reason body →
    400 ≤ status → status < 600 → ∃ e : FetchError, result = .error (.fetch e) ∧ e.message =
      "HTTP ".toList ++ Text.ofInt status ++ [' '] ++ reason ++ " for ".toList ++ url

lemma Settles.byStatus {o : Outcome} {result : Except Trouble Json} (h : Settles d r o result)
    (hd : d.Objects) : ByStatus r.url o result := by
  constructor
  · rintro status reason v rfl hstatus
    cases h with
    | read => rfl
    | refused objected => simp [hd.calm r status reason hstatus] at objected
  · rintro status reason why rfl hstatus
    cases h with
    | unreadable calm message => exact ⟨_, rfl, message⟩
    | refused objected => simp [hd.calm r status reason hstatus] at objected
  · rintro status reason body rfl hbad hstatus
    obtain ⟨line, hline⟩ := hd.objected r status reason hbad hstatus
    cases h with
    | refused objected message => exact ⟨_, rfl, message⟩
    | read calm => simp [hline] at calm
    | unreadable calm => simp [hline] at calm

/-! ### The attempts -/

/-- The pause that follows the attempt `i`: the first one doubled `i` times. -/
def pause (first : Float) (i : ℕ) : Float := (· * 2)^[i] first

/-- The first so many attempts, none of which was the last one allowed: a request, a notice of its
failure and a pause each. -/
def rounds (r : Request) (net : Network) (first : Float) (count : ℕ) : List Event :=
  (List.range count).flatMap fun i =>
    [.request r,
     .log ⟨Level.notice, "DockerDaemon._get_json(): ".toList ++ (net.outcome r i).line ++
       ". Retrying in ".toList ++ Tenths.shown (pause first i) ++ "s…".toList⟩,
     .pause (pause first i)]

/-- The first so many attempts met with lacks of connection or time, and the pause after each of them
could be made. -/
def Retried (d : Daemon) (r : Request) (net : Network) (first : Float) (count : ℕ) : Prop :=
  ∀ i < count, (net.outcome r i).Transient ∧ d.pauseFault (pause first i) = none

lemma rounds_succ (r : Request) (net : Network) (first : Float) (count : ℕ) :
    rounds r net first (count + 1) =
      [.request r, retryNote (net.outcome r 0).line first, .pause first] ++
        rounds r (net.after 1) (first * 2) count := by
  simp only [rounds, List.range_succ_eq_map, List.flatMap_cons, List.flatMap_map,
    Network.outcome_after_one]
  rfl

lemma rounds_succ_last (r : Request) (net : Network) (first : Float) (count : ℕ) :
    rounds r net first (count + 1) = rounds r net first count ++
      [.request r, retryNote (net.outcome r count).line (pause first count),
        .pause (pause first count)] := by
  simp only [rounds, List.range_succ, List.flatMap_append, List.flatMap_singleton]
  rfl

lemma retried_zero (d : Daemon) (r : Request) (net : Network) (first : Float) :
    d.Retried r net first 0 := fun i hi => absurd hi (Nat.not_lt_zero i)

lemma retried_succ_iff {first : Float} {count : ℕ} :
    d.Retried r net first (count + 1) ↔
      ((net.outcome r 0).Transient ∧ d.pauseFault first = none) ∧
        d.Retried r (net.after 1) (first * 2) count := by
  unfold Retried
  simp only [Network.outcome_after_one]
  constructor
  · exact fun h => ⟨h 0 (Nat.succ_pos count), fun i hi => h (i + 1) (by omega)⟩
  · rintro ⟨hfirst, hlater⟩ i hi
    cases i with
    | zero => exact hfirst
    | succ i => exact hlater i (by omega)

lemma attempt_of_done (h : ¬ (net.outcome r 0).Transient) (left : ℕ) (first : Float)
    (lines : List Text) :
    ∃ result, Settles d r (net.outcome r 0) result ∧
      d.attempt r (left + 1) first lines net = ⟨[.request r], result, net.after 1⟩ := by
  obtain ⟨result, hverdict, hsettles⟩ := verdict_of_not_transient d r h
  refine ⟨result, hsettles, ?_⟩
  rw [attempt, Network.respond_eq]
  simp only [hverdict]

lemma attempt_of_last (h : (net.outcome r 0).Transient) (first : Float) (lines : List Text) :
    d.attempt r 1 first lines net =
      ⟨[.request r, giveUpNote r.url (d.retries + 1)],
        .error (.fetch (.unreachable d.host (lines ++ [(net.outcome r 0).line]))), net.after 1⟩ := by
  rw [attempt, Network.respond_eq]
  simp only [verdict_of_transient h]
  rfl

lemma attempt_of_again (h : (net.outcome r 0).Transient) {first : Float}
    (hpause : d.pauseFault first = none) (left : ℕ) (lines : List Text) :
    d.attempt r (left + 2) first lines net =
      let rest := d.attempt r (left + 1) (first * 2) (lines ++ [(net.outcome r 0).line])
        (net.after 1)
      { rest with
        events := [.request r, retryNote (net.outcome r 0).line first, .pause first] ++
          rest.events } := by
  rw [attempt, Network.respond_eq]
  simp only [verdict_of_transient h, hpause, Nat.add_one_ne_zero, if_false]

lemma attempt_of_halted (h : (net.outcome r 0).Transient) {first : Float} {e : Fault × Text}
    (hpause : d.pauseFault first = some e) (left : ℕ) (lines : List Text) :
    d.attempt r (left + 2) first lines net =
      ⟨[.request r, retryNote (net.outcome r 0).line first, .pause first], .error (.ofFault e),
        net.after 1⟩ := by
  rw [attempt, Network.respond_eq]
  simp only [verdict_of_transient h, hpause, Nat.add_one_ne_zero, if_false]

/-- Attempts that are followed by others leave to those what there is to find out. -/
lemma attempt_of_retried {count : ℕ} {first : Float} (h : d.Retried r net first count) (left : ℕ)
    (lines : List Text) :
    d.attempt r (count + (left + 1)) first lines net =
      let rest := d.attempt r (left + 1) (pause first count)
        (lines ++ (List.range count).map fun i => (net.outcome r i).line) (net.after count)
      { rest with events := rounds r net first count ++ rest.events } := by
  induction count generalizing first lines net with
  | zero =>
    simp only [Nat.zero_add, List.range_zero, List.map_nil, List.append_nil]
    rfl
  | succ count ih =>
    obtain ⟨⟨htransient, hpause⟩, hlater⟩ := retried_succ_iff.mp h
    have hleft : count + 1 + (left + 1) = count + left + 2 := by omega
    have hlines : (List.range (count + 1)).map (fun i => (net.outcome r i).line) =
        (net.outcome r 0).line ::
          (List.range count).map fun i => ((net.after 1).outcome r i).line := by
      simp only [Network.outcome_after_one, List.range_succ_eq_map, List.map_cons, List.map_map]
      rfl
    have hrest := ih hlater (lines ++ [(net.outcome r 0).line])
    rw [hleft, attempt_of_again htransient hpause, hlines, rounds_succ]
    rw [← Nat.add_assoc] at hrest
    rw [hrest, Network.after_after, Nat.add_comm 1, List.append_assoc lines]
    rfl

/-- What the last attempt is, and why there is no other after it. -/
inductive Stops (d : Daemon) (r : Request) (net : Network) (first : Float) (most last : ℕ) : Prop
  | settled (h : ¬ (net.outcome r last).Transient)
  | exhausted (h : (net.outcome r last).Transient) (hmost : last = most)
  | unpaused (h : (net.outcome r last).Transient) (more : last < most) (e : Fault × Text)
      (hpause : d.pauseFault (pause first last) = some e)

lemma exists_last (d : Daemon) (r : Request) (net : Network) (first : Float) (most : ℕ) :
    ∃ last ≤ most, d.Retried r net first last ∧ d.Stops r net first most last := by
  induction most generalizing first net with
  | zero =>
    refine ⟨0, Nat.le_refl 0, retried_zero d r net first, ?_⟩
    by_cases h : (net.outcome r 0).Transient
    · exact .exhausted h rfl
    · exact .settled h
  | succ most ih =>
    by_cases h : (net.outcome r 0).Transient
    · cases hpause : d.pauseFault first with
      | some e =>
        exact ⟨0, Nat.zero_le _, retried_zero d r net first,
          .unpaused h (Nat.succ_pos most) e hpause⟩
      | none =>
        obtain ⟨last, hle, hretried, hstops⟩ := ih (net.after 1) (first * 2)
        refine ⟨last + 1, by omega, retried_succ_iff.mpr ⟨⟨h, hpause⟩, hretried⟩, ?_⟩
        rcases hstops with hlast | ⟨hlast, rfl⟩ | ⟨hlast, hmore, e, hfault⟩
        · exact .settled (net.outcome_after_one r last ▸ hlast)
        · exact .exhausted (net.outcome_after_one r last ▸ hlast) rfl
        · exact .unpaused (net.outcome_after_one r last ▸ hlast) (by omega) e hfault
    · exact ⟨0, Nat.zero_le _, retried_zero d r net first, .settled h⟩

/-- The attempts up to one that ends them. -/
lemma attempt_of_settled {k left : ℕ} (hk : k < left) {first : Float}
    (hbefore : d.Retried r net first k) (hlast : ¬ (net.outcome r k).Transient)
    (lines : List Text) :
    ∃ result, Settles d r (net.outcome r k) result ∧
      d.attempt r left first lines net =
        ⟨rounds r net first k ++ [.request r], result, net.after (k + 1)⟩ := by
  obtain ⟨m, rfl⟩ : ∃ m, left = k + (m + 1) := ⟨left - k - 1, by omega⟩
  rw [← net.outcome_after_zero r k] at hlast
  obtain ⟨result, hsettles, hdone⟩ := attempt_of_done (d := d) hlast m (pause first k)
    (lines ++ (List.range k).map fun i => (net.outcome r i).line)
  refine ⟨result, net.outcome_after_zero r k ▸ hsettles, ?_⟩
  rw [attempt_of_retried hbefore, hdone, Network.after_after]

/-- The attempts if none of them brings an answer. -/
lemma attempt_of_exhausted {most : ℕ} {first : Float} (hbefore : d.Retried r net first most)
    (hlast : (net.outcome r most).Transient) (lines : List Text) :
    d.attempt r (most + 1) first lines net =
      ⟨rounds r net first most ++ [.request r, giveUpNote r.url (d.retries + 1)],
        .error (.fetch (.unreachable d.host
          (lines ++ (List.range (most + 1)).map fun i => (net.outcome r i).line))),
        net.after (most + 1)⟩ := by
  rw [← net.outcome_after_zero r most] at hlast
  rw [attempt_of_retried hbefore, attempt_of_last hlast, Network.after_after,
    net.outcome_after_zero, List.range_succ, List.map_append, List.append_assoc]
  rfl

/-- The attempts up to a pause that cannot be made. -/
lemma attempt_of_unpaused {k left : ℕ} (hk : k + 1 < left) {first : Float}
    (hbefore : d.Retried r net first k) (hlast : (net.outcome r k).Transient) {e : Fault × Text}
    (hpause : d.pauseFault (pause first k) = some e) (lines : List Text) :
    d.attempt r left first lines net =
      ⟨rounds r net first (k + 1), .error (.ofFault e), net.after (k + 1)⟩ := by
  obtain ⟨m, rfl⟩ : ∃ m, left = k + (m + 1 + 1) := ⟨left - k - 2, by omega⟩
  rw [← Nat.add_zero k, ← net.outcome_after r k 0] at hlast
  rw [attempt_of_retried hbefore, attempt_of_halted hlast hpause, Network.after_after,
    net.outcome_after_zero, rounds_succ_last]

/-- A request that is not given up on comes to what settles it, or to what is wrong with a pause. -/
lemma exists_of_attempt {attempts : ℕ} {first : Float} {lines : List Text}
    {result : Except Trouble Json} (h : (d.attempt r attempts first lines net).result = result)
    (hkept : ∀ told, result ≠ .error (.fetch (.unreachable d.host told))) :
    ∃ k < attempts, d.Retried r net first k ∧
      (¬ (net.outcome r k).Transient ∧ Settles d r (net.outcome r k) result ∨
        (net.outcome r k).Transient ∧ k + 1 < attempts ∧
          ∃ e, d.pauseFault (pause first k) = some e ∧ result = .error (.ofFault e)) := by
  cases attempts with
  | zero => exact absurd h.symm (hkept lines)
  | succ most =>
    obtain ⟨last, hle, hretried, hstops⟩ := exists_last d r net first most
    refine ⟨last, Nat.lt_succ_of_le hle, hretried, ?_⟩
    rcases hstops with hlast | ⟨hlast, rfl⟩ | ⟨hlast, hmore, e, hpause⟩
    · obtain ⟨settled, hsettles, hattempt⟩ :=
        attempt_of_settled (Nat.lt_succ_of_le hle) hretried hlast lines
      rw [hattempt] at h
      exact .inl ⟨hlast, h ▸ hsettles⟩
    · rw [attempt_of_exhausted hretried hlast] at h
      exact absurd h.symm (hkept _)
    · rw [attempt_of_unpaused (Nat.succ_lt_succ hmore) hretried hlast hpause] at h
      exact .inr ⟨hlast, Nat.succ_lt_succ hmore, e, hpause, h.symm⟩

lemma fetch_eq_attempt (d : Daemon) (hd : 0 ≤ d.retries) (path : Text)
    (params : Option (List (Text × Text))) (net : Network) :
    d.fetch path params net =
      d.attempt ⟨d.host ++ path, params, d.timeout⟩ (d.retries.toNat + 1) d.backoff [] net := by
  have hallowed : (d.retries + 1).toNat = d.retries.toNat + 1 := by omega
  rw [← hallowed]
  rfl

/-- **Retries**: the first outcome that is no lack of connection or time, if it is among those of
the attempts allowed, is the last one asked for and alone decides the result. Each attempt before it
is told of and followed by a pause twice as long as the one before. If there is no such outcome, all
attempts are made, with a pause between any two of them, and the error has a line for each. A pause
that cannot be made is the end of the attempts, and what is wrong with it their result. -/
theorem fetch_until_settled (d : Daemon) (hd : 0 ≤ d.retries) (hobjects : d.Objects) (path : Text)
    (params : Option (List (Text × Text))) (net : Network) :
    let r : Request := ⟨d.host ++ path, params, d.timeout⟩
    let o := net.outcome r
    let reply := d.fetch path params net
    (∀ k : ℕ, k ≤ d.retries → (∀ i < k, (o i).Transient) → ¬ (o k).Transient →
      (∀ i < k, d.pauseFault (pause d.backoff i) = none) →
      reply.events = rounds r net d.backoff k ++ [.request r] ∧
        Settles d r (o k) reply.result ∧ ByStatus r.url (o k) reply.result ∧
        reply.network = net.after (k + 1)) ∧
      ((∀ i : ℕ, i ≤ d.retries → (o i).Transient) →
        (∀ i : ℕ, i < d.retries → d.pauseFault (pause d.backoff i) = none) →
        reply.events = rounds r net d.backoff d.retries.toNat ++
            [.request r,
             .log ⟨Level.error, "DockerDaemon._get_json(): giving up on ".toList ++ r.url ++
               " after ".toList ++ Text.ofInt (d.retries + 1) ++ " attempts".toList⟩] ∧
          (∃ e, reply.result = .error (.fetch e) ∧
            e.message = "Could not reach the Docker daemon at ".toList ++ d.host ∧
            e.attempts = (List.range (d.retries.toNat + 1)).map fun i => (o i).line) ∧
          reply.network = net.after (d.retries.toNat + 1)) ∧
      ∀ (k : ℕ) (e : Fault × Text), k < d.retries → (∀ i ≤ k, (o i).Transient) →
        (∀ i < k, d.pauseFault (pause d.backoff i) = none) →
        d.pauseFault (pause d.backoff k) = some e →
        reply.events = rounds r net d.backoff (k + 1) ∧
          reply.result = .error (.fault e.1 e.2) ∧ reply.network = net.after (k + 1) := by
  intro r o reply
  have hreply : reply = d.attempt r (d.retries.toNat + 1) d.backoff [] net :=
    fetch_eq_attempt d hd path params net
  refine ⟨fun k hk hbefore hlast hpauses => ?_, fun h hpauses => ?_,
    fun k e hk h hpauses hfault => ?_⟩
  · have hretried : d.Retried r net d.backoff k := fun i hi => ⟨hbefore i hi, hpauses i hi⟩
    have hleft : k < d.retries.toNat + 1 := by omega
    obtain ⟨result, hsettles, hattempt⟩ := attempt_of_settled hleft hretried hlast []
    rw [hreply, hattempt]
    exact ⟨rfl, hsettles, hsettles.byStatus hobjects, rfl⟩
  · have hretried : d.Retried r net d.backoff d.retries.toNat :=
      fun i hi => ⟨h i (by omega), hpauses i (by omega)⟩
    rw [hreply, attempt_of_exhausted hretried (h d.retries.toNat (by omega)) []]
    exact ⟨rfl, ⟨_, rfl, rfl, rfl⟩, rfl⟩
  · have hretried : d.Retried r net d.backoff k :=
      fun i hi => ⟨h i (Nat.le_of_lt hi), hpauses i hi⟩
    rw [hreply, attempt_of_unpaused (by omega) hretried (h k (Nat.le_refl k)) hfault []]
    exact ⟨rfl, rfl, rfl⟩

/-- Two failures and an answer: three requests and two pauses. With no attempt to spare, one failure
is given up on at once. If the first pause cannot be made, there is no second request. -/
theorem fetch_until_settled_at_third :
    let d : Daemon := { host := ['h'], objection := Http.objection }
    let r : Request := { url := "h/p".toList, timeout := {} }
    let failed : List Outcome :=
      [.failed .timeout "slow".toList, .failed .connectionError "refused".toList]
    let net : Network := { queue := failed ++ [.answered 200 "OK".toList (.json (.arr []))] }
    let told (line : String) (pause : Float) : LogRecord :=
      ⟨25, "DockerDaemon._get_json(): ".toList ++ line.toList ++ ". Retrying in ".toList ++
        Tenths.shown pause ++ "s…".toList⟩
    let wrong : Fault × Text := (.valueError, "sleep length must be non-negative".toList)
    (0 ≤ d.retries ∧ d.Objects ∧ (2 : ℕ) ≤ d.retries ∧ (∀ i < 2, (net.outcome r i).Transient) ∧
        ¬ (net.outcome r 2).Transient) ∧
      (d.fetch "/p".toList none net).events =
        [.request r, .log (told "Timeout: slow" 0.5), .pause 0.5,
         .request r, .log (told "ConnectionError: refused" (0.5 * 2)), .pause (0.5 * 2),
         .request r] ∧
      (d.fetch "/p".toList none net).result = .ok (.arr []) ∧
      ({ d with retries := 0 }.fetch "/p".toList none net).events =
        [.request r,
         .log ⟨40, "DockerDaemon._get_json(): giving up on h/p after 1 attempts".toList⟩] ∧
      ({ d with backoff := -1, pauseFault := fun _ => some wrong }.fetch "/p".toList none net).result
        = .error (.fault wrong.1 wrong.2) := by
  intro d r failed net told wrong
  have hobjects : d.Objects := objects_of_http rfl
  have hbefore : ∀ i < 2, (net.outcome r i).Transient := by decide
  have hlast : ¬ (net.outcome r 2).Transient := by decide
  obtain ⟨hevents, -, hstatus, -⟩ :=
    (fetch_until_settled d (by decide) hobjects "/p".toList none net).1 2 (by decide) hbefore hlast
      fun _ _ => rfl
  obtain ⟨hgiven, -, -⟩ :=
    (fetch_until_settled { d with retries := 0 } (by decide) (objects_of_http rfl) "/p".toList none
      net).2.1
      (fun i hi => hbefore i (by have hzero : (i : Int) ≤ 0 := hi; omega)) fun _ _ => rfl
  obtain ⟨-, hfault, -⟩ :=
    (fetch_until_settled { d with backoff := -1, pauseFault := fun _ => some wrong } (by decide)
      (objects_of_http rfl) "/p".toList none net).2.2 0 wrong (by decide)
      (fun i hi => hbefore i (by omega)) (fun i hi => absurd hi (Nat.not_lt_zero i)) rfl
  refine ⟨⟨by decide, hobjects, by decide, hbefore, hlast⟩, hevents, ?_, hgiven, hfault⟩
  exact hstatus.read 200 "OK".toList (.arr []) rfl (by decide)

end Daemon

end DockConsole
