import DockConsole.Page
import DockConsole.Proofs.Daemon.Retries

/-!
Faults that pass through.

A lack of connection or time is tried again, and a refusal, an unreadable answer or a value that
cannot be sent becomes an error that callers are told about. Callers meet with a fault instead if an
attempt breaks off in one, or if the answer has values of other kinds than they expect. Which requests
a fault strikes can be told from the outcomes ahead.
-/

namespace DockConsole

namespace Daemon

variable {d : Daemon} {r : Request} {net : Network} {f : Fault} {text : Text}

/-- How often a request is sent at most. -/
def allowed (d : Daemon) : ℕ := (d.retries + 1).toNat

/-- With such an outcome an attempt breaks off in a fault: in the one it met with, in that of a status
without an answer, or, if there is `more` to come, in that of the pause. -/
inductive Breaks (d : Daemon) (pause : Float) (more : Prop) : Outcome → Fault → Text → Prop
  | passed {f : Fault} {text : Text} (other : f.family = .other) :
      Breaks d pause more (.failed f text) f text
  | answerless {f : Fault} {text : Text} (status : f.family = .status) :
      Breaks d pause more (.failed f text) answerless.1 answerless.2
  | unpaused {o : Outcome} {f : Fault} {text : Text} (h : o.Transient) (hmore : more)
      (hpause : d.pauseFault pause = some (f, text)) : Breaks d pause more o f text

/-- The first attempt after which no other is made breaks off in this fault. -/
def BreaksOff (d : Daemon) (r : Request) (net : Network) (attempts : ℕ) (first : Float) (f : Fault)
    (text : Text) : Prop :=
  ∃ k < attempts, d.Retried r net first k ∧
    d.Breaks (pause first k) (k + 1 < attempts) (net.outcome r k) f text

/-- The first attempt after which no other is made brings this value. -/
def Brings (d : Daemon) (r : Request) (net : Network) (attempts : ℕ) (first : Float) (v : Json) :
    Prop :=
  ∃ k < attempts, d.Retried r net first k ∧ ∃ status reason,
    net.outcome r k = .answered status reason (.json v) ∧ d.objection r status reason = none

/-- This fault comes of the request, or of the value that it brings. -/
def Strikes (d : Daemon) (r : Request) (misfit? : Json → Option (Fault × Text)) (net : Network)
    (f : Fault) (text : Text) : Prop :=
  d.BreaksOff r net d.allowed d.backoff f text ∨
    ∃ v, d.Brings r net d.allowed d.backoff v ∧ misfit? v = some (f, text)

/-! ### Attempts -/

lemma Breaks.of_transient {pause : Float} {more : Prop} {o : Outcome}
    (h : d.Breaks pause more o f text) (ho : o.Transient) :
    more ∧ d.pauseFault pause = some (f, text) := by
  cases h with
  | unpaused _ hmore hpause => exact ⟨hmore, hpause⟩
  | passed other =>
    have htransient : f.family = .transient := ho
    simp [htransient] at other
  | @answerless g said status =>
    have htransient : g.family = .transient := ho
    simp [htransient] at status

lemma Settles.breaks {o : Outcome} (h : Settles d r o (.error (.fault f text))) (pause : Float)
    (more : Prop) : d.Breaks pause more o f text := by
  cases h with
  | passed other => exact .passed other
  | answerless status => exact .answerless status

lemma Settles.of_breaks {o : Outcome} {result : Except Trouble Json} (h : Settles d r o result)
    (hlast : ¬ o.Transient) {pause : Float} {more : Prop} (hbreaks : d.Breaks pause more o f text) :
    result = .error (.fault f text) := by
  cases hbreaks with
  | passed other =>
    cases h with
    | passed => rfl
    | badValue bad => simp [bad] at other
    | answerless status => simp [status] at other
  | answerless status =>
    cases h with
    | answerless => rfl
    | badValue bad => simp [bad] at status
    | passed other => simp [other] at status
  | unpaused h => exact absurd h hlast

lemma Settles.brings {o : Outcome} {v : Json} (h : Settles d r o (.ok v)) :
    ∃ status reason, o = .answered status reason (.json v) ∧ d.objection r status reason = none := by
  cases h with
  | read calm => exact ⟨_, _, rfl, calm⟩

lemma Settles.of_brings {status : Int} {reason : Text} {v : Json} {result : Except Trouble Json}
    (h : Settles d r (.answered status reason (.json v)) result)
    (hcalm : d.objection r status reason = none) : result = .ok v := by
  cases h with
  | read => rfl
  | refused objected => simp [hcalm] at objected

lemma attempt_fault_iff (d : Daemon) (r : Request) (attempts : ℕ) (first : Float)
    (lines : List Text) (net : Network) :
    (d.attempt r attempts first lines net).result = .error (.fault f text) ↔
      d.BreaksOff r net attempts first f text := by
  constructor
  · intro h
    obtain ⟨k, hk, hretried, ⟨-, hsettles⟩ | ⟨hlast, hmore, e, hpause, hfault⟩⟩ :=
      exists_of_attempt h (by rintro told ⟨⟩)
    · exact ⟨k, hk, hretried, hsettles.breaks _ _⟩
    · cases hfault
      exact ⟨k, hk, hretried, .unpaused hlast hmore hpause⟩
  · rintro ⟨k, hk, hretried, hbreaks⟩
    by_cases hlast : (net.outcome r k).Transient
    · obtain ⟨hmore, hpause⟩ := hbreaks.of_transient hlast
      rw [attempt_of_unpaused hmore hretried hlast hpause]
      rfl
    · obtain ⟨result, hsettles, hattempt⟩ := attempt_of_settled hk hretried hlast lines
      rw [hattempt]
      exact hsettles.of_breaks hlast hbreaks

lemma attempt_ok_iff (d : Daemon) (r : Request) (attempts : ℕ) (first : Float)
    (lines : List Text) (net : Network) (v : Json) :
    (d.attempt r attempts first lines net).result = .ok v ↔ d.Brings r net attempts first v := by
  constructor
  · intro h
    obtain ⟨k, hk, hretried, ⟨-, hsettles⟩ | ⟨-, -, e, -, hfault⟩⟩ :=
      exists_of_attempt h (by rintro told ⟨⟩)
    · exact ⟨k, hk, hretried, hsettles.brings⟩
    · cases hfault
  · rintro ⟨k, hk, hretried, status, reason, hanswer, hcalm⟩
    have hlast : ¬ (net.outcome r k).Transient := by
      rw [hanswer]
      exact id
    obtain ⟨result, hsettles, hattempt⟩ := attempt_of_settled hk hretried hlast lines
    rw [hanswer] at hsettles
    rw [hattempt]
    exact hsettles.of_brings hcalm

/-! ### Requests -/

def listRequest (d : Daemon) (selections : List Selection) : Request :=
  ⟨d.host ++ "/containers/json".toList, some (params selections), d.timeout⟩

def detailsRequest (d : Daemon) (id : Text) : Request :=
  ⟨d.host ++ ("/containers/".toList ++ id ++ "/json".toList), none, d.timeout⟩

lemma strikes_iff (path : Text) (ps : Option (List (Text × Text)))
    (misfit? : Json → Option (Fault × Text)) :
    d.Strikes ⟨d.host ++ path, ps, d.timeout⟩ misfit? net f text ↔
      (d.fetch path ps net).result = .error (.fault f text) ∨
        ∃ v, (d.fetch path ps net).result = .ok v ∧ misfit? v = some (f, text) := by
  unfold Strikes fetch
  simp only [← attempt_fault_iff d _ _ _ [], ← attempt_ok_iff d _ _ _ []]
  rfl

/-- What keeps the answer to a request for a list from being read, or from filling the rows of the
table, if anything. -/
def listMisfit? : Json → Option (Fault × Text)
  | .arr items =>
    (items.findSome? Summary.misfit?).or ((items.map Summary.ofJson).findSome? Summary.rowMisfit?)
  | _ => none

/-- What keeps the answer to a request for details from being shown, if anything. -/
def detailsMisfit? : Json → Option (Fault × Text)
  | .obj fields => Page.misfit? (.obj fields)
  | _ => none

end Daemon

end DockConsole
