import MyService.Event.Delivery

/-!
# Progress

No request waits for another one and none loops over calls: each is over after a number of
its own calls that its endpoint fixes, whatever those calls are answered, and its answer has
one of the endpoint's statuses. What stays a loop inside a handler is over data, between two
calls.
-/

namespace MyService.Handlers.Progress

open Framework Userver Calls

/-- The most calls that a request makes; a publication is up to four of them. -/
def maxCalls : Request → ℕ
  | .register _ => 7
  | .login _ => 9
  | .userSearch _ => 1
  | .createProject _ _ => 7
  | .getProjects _ => 3
  | .createTask _ _ => 8
  | .addComment _ _ => 8
  | .getComments _ => 3
  | .addReply _ => 9

/-- The statuses that a handler sets; anything else it throws. -/
def statuses : Request → List ℕ
  | .register _ => [201, 400, 409]
  | .login _ => [200, 400, 401, 429]
  | .userSearch _ => [200, 400]
  | .createProject _ _ => [201, 400]
  | .getProjects _ => [200]
  | .createTask _ _ => [201, 400, 404]
  | .addComment _ _ => [201]
  | .getComments _ => [200]
  | .addReply _ => [201]

/-- The bounds of a program that goes on after a history. -/
abbrev Bounded (calls : ℕ) (answers : List ℕ) (h : Prog.History Call Call.Answer)
    (p : Service HttpResponse) : Prop :=
  Prog.Obeys (fun h _ => h.length < calls) (fun _ response => response.status ∈ answers)
    (fun _ _ => True) h p

section Bounds

variable {u : Userver} {request : Request} {outcome : Outcome} {c : Call}
  {h q : Prog.History Call Call.Answer}

/-- Publishing leaves the bound as it is, or one call short of it. -/
theorem length_of_completes (hcompletes : Completes u request h outcome)
    (hlength : q.length ≤ 3) : (h ++ q).length < maxCalls request := by
  rw [List.length_append]
  cases hcompletes <;> simp only [callsToToken, List.length_cons, List.length_nil, maxCalls] <;>
    omega

/-- One call may follow the event. -/
theorem length_of_sent (hsent : Sent u request outcome h)
    (hroom : ∀ h₀, Completes u request h₀ outcome → h₀.length + 4 < maxCalls request) :
    h.length < maxCalls request := by
  cases hsent with
  | intro answer hcompletes hquiet hlength =>
      have hbefore := hroom _ hcompletes
      simp only [List.length_append, List.length_singleton]
      omega

theorem length_of_makes (hmakes : Makes u request h c) : h.length < maxCalls request := by
  cases hmakes with
  | eventDraws hcompletes _ hlength | eventNow hcompletes _ hlength =>
      exact length_of_completes hcompletes (by omega)
  | eventSend hcompletes _ hlength => exact length_of_completes hcompletes hlength
  | loginInfo hsent | commentDrop hsent | replyDrop hsent | replyDropAll hsent =>
      refine length_of_sent hsent fun h₀ hcompletes => ?_
      cases hcompletes
      simp [callsToToken, maxCalls]
  | _ => simp [maxCalls]

theorem status_of_returns {response : HttpResponse} (hreturns : Returns u request h response) :
    response.status ∈ statuses request := by
  cases hreturns <;> simp [statuses, tooManyRequests]

end Bounds

theorem bounded_serve (u : Userver) (request : Request) :
    Bounded (maxCalls request) (statuses request) [] (serve u request) :=
  (conducts_serve u request).mono (fun _ _ hmakes => length_of_makes hmakes)
    (fun _ _ hreturns => status_of_returns hreturns) fun _ _ _ => trivial

section Runs

variable (u : Userver) (w : World) (requests : ℕ → Request) (sched : List (ℕ × Choice))

theorem run_bounded :
    Config.Contracts perform (fun tid h _ => h.length < maxCalls (requests tid))
      (fun tid _ response => response.status ∈ statuses (requests tid)) (fun _ _ _ => True)
      (runService u w requests sched) :=
  Config.run_obeys perform (fun tid => bounded_serve u (requests tid)) sched

/-- A call is made only below the bound, so there is none past it. -/
theorem own_length_le (tid n : ℕ) :
    (own perform tid ((runService u w requests sched).trace.take n)).length ≤
      maxCalls (requests tid) := by
  induction n with
  | zero => exact Nat.zero_le _
  | succ n ih =>
      cases hn : (runService u w requests sched).trace[n]? with
      | none => rwa [List.take_add_one, hn, Option.toList_none, List.append_nil]
      | some e =>
          rw [List.take_add_one, hn, Option.toList_some]
          by_cases htid : e.tid = tid
          · have hlt := (run_bounded u w requests sched).calls n e hn
            subst htid
            rw [own_snoc_self, List.length_append, List.length_singleton]
            exact hlt
          · rwa [own_snoc_ne perform htid]

/-- **Every request ends.** In every run a request makes no more calls than its endpoint's
bound, and once it was scheduled that often it has answered or thrown, whatever the other
requests do and whatever fails; an answer has one of the endpoint's statuses. -/
theorem requests_progress (tid : ℕ) :
    (own perform tid (runService u w requests sched).trace).length ≤ maxCalls (requests tid) ∧
      (maxCalls (requests tid) ≤ (sched.countP fun a => a.1 = tid) →
        ¬Event.Delivery.Running (runService u w requests sched) tid) ∧
      ∀ response, Answered (runService u w requests sched) tid response →
        response.status ∈ statuses (requests tid) := by
  have hobeys := (run_bounded u w requests sched).pool tid
  refine ⟨?_, ?_, ?_⟩
  · have hle := own_length_le u w requests sched tid (runService u w requests sched).trace.length
    rwa [List.take_length] at hle
  · rintro hturns ⟨c, k, hpool⟩
    have hlength : (own perform tid (runService u w requests sched).trace).length =
        sched.countP fun a => a.1 = tid := Config.own_length_of_running perform hpool
    rw [hpool] at hobeys
    exact absurd hobeys.1 (by omega)
  · intro response hanswered
    rw [hanswered] at hobeys
    exact hobeys

end Runs

end MyService.Handlers.Progress
