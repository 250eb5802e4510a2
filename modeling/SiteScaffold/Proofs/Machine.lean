/-
Machines answer requests from a state. A program that works on a disk is one, and so is
a description of what it does in terms of something simpler. If each request keeps what
holds between the two states and is answered alike, so does every run
(`Machine.run_simulates`); this is the only induction over runs there is.
-/
namespace SiteScaffold

/-- What answers a request in a state, and the state after it. -/
def Machine (Request State Answer : Type) : Type := Request → State → Answer × State

namespace Machine

variable {Request State Other Answer : Type}

/-- The answers to requests made one after another, whatever they are, and the state
after the last. -/
def run (machine : Machine Request State Answer) : List Request → State → List Answer × State
  | [], state => ([], state)
  | request :: requests, state =>
    let (answer, state) := machine request state
    let (answers, state) := machine.run requests state
    (answer :: answers, state)

/-- A machine that answers each request as another one does, and keeps step with it, as
long as its answers are ones that are allowed for, does so in every run of such answers. -/
theorem run_simulates_of_allowed (program : Machine Request State Answer)
    (description : Machine Request Other Answer) (Holds : Other → State → Prop)
    (Allowed : Answer → Prop) {requests : List Request} {state : State} {other : Other}
    (hstep : ∀ request ∈ requests, ∀ other state, Holds other state →
      Allowed (program request state).1 →
        (program request state).1 = (description request other).1
          ∧ Holds (description request other).2 (program request state).2)
    (h : Holds other state) (hallowed : ∀ answer ∈ (program.run requests state).1, Allowed answer) :
    (program.run requests state).1 = (description.run requests other).1
      ∧ Holds (description.run requests other).2 (program.run requests state).2 := by
  induction requests generalizing state other with
  | nil => exact ⟨rfl, h⟩
  | cons request requests ih =>
      obtain ⟨hfirst, hrest⟩ := List.forall_mem_cons.1 hallowed
      obtain ⟨hanswer, hnext⟩ := hstep request (List.mem_cons_self ..) other state h hfirst
      obtain ⟨hanswers, hlast⟩ := ih (fun r hr => hstep r (List.mem_cons_of_mem _ hr)) hnext hrest
      refine ⟨?_, hlast⟩
      show (program request state).1 :: _ = (description request other).1 :: _
      rw [hanswer, hanswers]

/-- A machine that answers each request as another one does, and keeps step with it, does
so in every run. -/
theorem run_simulates (program : Machine Request State Answer)
    (description : Machine Request Other Answer) (Holds : Other → State → Prop)
    {requests : List Request} {state : State} {other : Other}
    (hstep : ∀ request ∈ requests, ∀ other state, Holds other state →
      (program request state).1 = (description request other).1
        ∧ Holds (description request other).2 (program request state).2)
    (h : Holds other state) :
    (program.run requests state).1 = (description.run requests other).1
      ∧ Holds (description.run requests other).2 (program.run requests state).2 := by
  refine run_simulates_of_allowed program description Holds (fun _ => True) ?_ h (by simp)
  exact fun request hrequest other state hholds _ => hstep request hrequest other state hholds

/-- What every request keeps, a run keeps. -/
theorem run_keeps (machine : Machine Request State Answer) (Holds : State → Prop)
    {requests : List Request} {state : State}
    (hstep : ∀ request ∈ requests, ∀ state, Holds state → Holds (machine request state).2)
    (h : Holds state) : Holds (machine.run requests state).2 := by
  have hboth : ∀ request ∈ requests, ∀ other state, other = state ∧ Holds state →
      (machine request state).1 = (machine request other).1
        ∧ (machine request other).2 = (machine request state).2
        ∧ Holds (machine request state).2 := by
    rintro request hrequest state _ ⟨rfl, hstate⟩
    exact ⟨rfl, rfl, hstep request hrequest state hstate⟩
  have hrun := run_simulates machine machine (fun other state => other = state ∧ Holds state) hboth
    ⟨rfl, h⟩
  exact hrun.2.2

/-- Requests after others start where those have led. -/
theorem run_append (machine : Machine Request State Answer) (first second : List Request)
    (state : State) :
    (machine.run (first ++ second) state).2
      = (machine.run second (machine.run first state).2).2 := by
  induction first generalizing state with
  | nil => rfl
  | cons request first ih => exact ih (machine request state).2

end Machine

end SiteScaffold
