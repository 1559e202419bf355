import MinesApp.TransitionSystem

/-!
# Functions that await

An `async` function as a tree: it ends with an answer, it throws, or it issues a
command and goes on with the reply.  Between a command and the reply any number of
other calls may run, so a table of such trees over a shared state, each resumed at
any time, is every interleaving of the calls at their commands.

What one call holds (a lock, an open transaction, a list of things done) is followed
by a record that its own commands move.  `Program.Meets` says where that record ends
on every path of the tree.  It looks at no state, so it is proved once for each
function, combinator by combinator.  `Tracked` ties the record of each running call to
the shared state, and `tracked_resume` keeps the tie over one step.
-/

namespace MinesApp.AwaitProgram

open TransitionSystem Function

variable {Command : Type} {Reply : Command → Type} {Error Answer Other : Type}

/-! ## 1. Programs -/

inductive Program (Reply : Command → Type) (Error Answer : Type) : Type where
  | done (answer : Answer)
  | throw (error : Error)
  | await (command : Command) (next : Reply command → Program Reply Error Answer)

namespace Program

def bind : Program Reply Error Answer → (Answer → Program Reply Error Other) →
    Program Reply Error Other
  | .done answer, rest => rest answer
  | .throw error, _ => .throw error
  | .await command next, rest => .await command fun reply => (next reply).bind rest

/-- `try .. catch`: the handler takes over where the body throws. -/
def orElse : Program Reply Error Answer → (Error → Program Reply Error Answer) →
    Program Reply Error Answer
  | .done answer, _ => .done answer
  | .throw error, handler => handler error
  | .await command next, handler => .await command fun reply => (next reply).orElse handler

def perform (command : Command) : Program Reply Error (Reply command) := .await command .done

instance : Monad (Program Reply Error) where
  pure := .done
  bind := .bind

/-- `try .. finally`: `last` runs on both ways out. -/
def andFinally (body : Program Reply Error Answer) (last : Program Reply Error Other) :
    Program Reply Error Answer := do
  let answer ← body.orElse fun error => do
    let _ ← last
    .throw error
  let _ ← last
  return answer

def Ended : Program Reply Error Answer → Prop
  | .done _ | .throw _ => True
  | .await _ _ => False

instance (program : Program Reply Error Answer) : Decidable program.Ended :=
  match program with
  | .done _ | .throw _ => isTrue trivial
  | .await _ _ => isFalse id

end Program

/-! ## 2. What a program holds when it ends -/

section Meets

variable {Held : Type} (after : Held → (command : Command) → Reply command → Held)

/-- On every path the record, moved by the commands, ends within `post`. -/
def Program.Meets : Program Reply Error Answer → Held → (Except Error Answer → Held → Prop) → Prop
  | .done answer, held, post => post (.ok answer) held
  | .throw error, held, post => post (.error error) held
  | .await command next, held, post =>
    ∀ reply, (next reply).Meets (after held command reply) post

/-- From a record that is `good` the program ends with the same. -/
def Program.Keeps (good : Held → Prop) (program : Program Reply Error Answer) : Prop :=
  ∀ held, good held → program.Meets after held fun _ final => final = held

variable {after} {good : Held → Prop} {held : Held} {post : Except Error Answer → Held → Prop}
  {first body : Program Reply Error Answer} {rest : Answer → Program Reply Error Other}

theorem Program.Meets.mono {program : Program Reply Error Answer}
    {weaker : Except Error Answer → Held → Prop} (h : program.Meets after held post)
    (himp : ∀ outcome final, post outcome final → weaker outcome final) :
    program.Meets after held weaker := by
  induction program generalizing held with
  | done answer | throw error => exact himp _ _ h
  | await command next ih =>
    intro reply
    exact ih reply (h reply)

/-- **Sequence rule.** -/
theorem meets_bind {post : Except Error Other → Held → Prop}
    (h : first.Meets after held fun outcome middle =>
      match outcome with
      | .ok answer => (rest answer).Meets after middle post
      | .error error => post (.error error) middle) : (first >>= rest).Meets after held post := by
  induction first generalizing held with
  | done answer | throw error => exact h
  | await command next ih =>
    intro reply
    exact ih reply (h reply)

variable {handler : Error → Program Reply Error Answer}

/-- **Handler rule.** -/
theorem meets_orElse (h : body.Meets after held fun outcome middle =>
      match outcome with
      | .ok answer => post (.ok answer) middle
      | .error error => (handler error).Meets after middle post) :
    (body.orElse handler).Meets after held post := by
  induction body generalizing held with
  | done answer | throw error => exact h
  | await command next ih =>
    intro reply
    exact ih reply (h reply)

theorem Program.Keeps.meets_bind
    {post : Except Error Other → Held → Prop} (h : first.Keeps after good) (hheld : good held)
    (hrest : ∀ answer, (rest answer).Meets after held post)
    (hthrow : ∀ error, post (.error error) held) : (first >>= rest).Meets after held post := by
  apply AwaitProgram.meets_bind
  apply (h held hheld).mono
  rintro (error | answer) final rfl
  · exact hthrow error
  · exact hrest answer

theorem keeps_pure (answer : Answer) :
    (pure answer : Program Reply Error Answer).Keeps after good := fun _ _ => rfl

theorem keeps_throw (error : Error) :
    (.throw error : Program Reply Error Answer).Keeps after good := fun _ _ => rfl

theorem keeps_perform {command : Command} (h : ∀ held reply, after held command reply = held) :
    (Program.perform command : Program Reply Error (Reply command)).Keeps after good :=
  fun held _ reply => h held reply

theorem Program.Keeps.bind (h : first.Keeps after good)
    (hrest : ∀ answer, (rest answer).Keeps after good) : (first >>= rest).Keeps after good := by
  intro held hheld
  apply h.meets_bind hheld
  · intro answer
    exact hrest answer held hheld
  · intro error
    rfl

theorem Program.Keeps.orElse
    (h : body.Keeps after good) (hhandler : ∀ error, (handler error).Keeps after good) :
    (body.orElse handler).Keeps after good := by
  intro held hheld
  apply meets_orElse
  apply (h held hheld).mono
  rintro (error | answer) final rfl
  · exact hhandler error final hheld
  · rfl

/-- **Rule for `finally`.**  The body keeps the record, and `last` brings it within `post`
    whatever the outcome. -/
theorem Program.Keeps.meets_andFinally {last : Program Reply Error Other}
    (h : body.Keeps after good) (hheld : good held)
    (hlast : last.Meets after held fun _ final => ∀ outcome, post outcome final) :
    (body.andFinally last).Meets after held post := by
  apply AwaitProgram.meets_bind
  apply meets_orElse
  apply (h held hheld).mono
  rintro (error | answer) final rfl
  all_goals
    apply AwaitProgram.meets_bind
    apply hlast.mono
    rintro (failure | done) final hfinal
    all_goals exact hfinal _

end Meets

/-! ## 3. Interleaved calls -/

/-- A shared state and the calls on it; a call that has ended stays as its outcome. -/
structure World (Shared : Type) (Reply : Command → Type) (Error Answer : Type) where
  shared : Shared
  calls : Nat → Option (Program Reply Error Answer)

section Calls

variable {Shared : Type} {world next : World Shared Reply Error Answer}

def World.start (shared : Shared) : World Shared Reply Error Answer := ⟨shared, fun _ => none⟩

def World.call (world : World Shared Reply Error Answer) (id : Nat)
    (program : Program Reply Error Answer) : Option (World Shared Reply Error Answer) :=
  match world.calls id with
  | none => some { world with calls := update world.calls id (some program) }
  | some _ => none

variable (execute : Shared → Nat → (command : Command) → Option (Shared × Reply command))

/-- The pending command of a call takes effect and the call runs to its next one; `none`
    when the command has to wait. -/
def World.resume (world : World Shared Reply Error Answer) (id : Nat) :
    Option (World Shared Reply Error Answer) :=
  match world.calls id with
  | some (.await command next) =>
    (execute world.shared id command).map fun (shared, reply) =>
      ⟨shared, update world.calls id (some (next reply))⟩
  | _ => none

variable {execute}

theorem call_eq_some {id : Nat} {program : Program Reply Error Answer}
    (h : world.call id program = some next) :
    world.calls id = none ∧
      next = { world with calls := update world.calls id (some program) } := by
  unfold World.call at h
  split at h
  next hfree =>
    cases h
    exact ⟨hfree, rfl⟩
  · cases h

theorem resume_eq_some {id : Nat} (h : world.resume execute id = some next) :
    ∃ command rest shared reply, world.calls id = some (.await command rest) ∧
      execute world.shared id command = some (shared, reply) ∧
      next = ⟨shared, update world.calls id (some (rest reply))⟩ := by
  unfold World.resume at h
  split at h
  next command rest hcall =>
    obtain ⟨⟨shared, reply⟩, hexecute, rfl⟩ := Option.map_eq_some_iff.mp h
    exact ⟨command, rest, shared, reply, hcall, hexecute, rfl⟩
  · cases h

/-! ## 4. Records that follow the calls -/

variable {Held : Type} {after : Held → (command : Command) → Reply command → Held}
  {post : Except Error Answer → Held → Prop} {start : Held} {Holds : Shared → Nat → Held → Prop}

/-- Every call is on a path that ends within `post`, and its record agrees with the shared
    state; a call yet to come agrees with the record it will start from. -/
structure Tracked (after : Held → (command : Command) → Reply command → Held)
    (post : Except Error Answer → Held → Prop) (start : Held) (Holds : Shared → Nat → Held → Prop)
    (world : World Shared Reply Error Answer) : Prop where
  idle : ∀ id, world.calls id = none → Holds world.shared id start
  running : ∀ id program, world.calls id = some program →
    ∃ held, program.Meets after held post ∧ Holds world.shared id held

section

variable (h : Tracked after post start Holds world)
include h

theorem tracked_call {id : Nat} {program : Program Reply Error Answer}
    (hprogram : program.Meets after start post)
    (hcall : world.call id program = some next) : Tracked after post start Holds next := by
  obtain ⟨hfree, rfl⟩ := call_eq_some hcall
  constructor
  · intro other hother
    apply h.idle
    by_cases hsame : other = id
    · exact hsame ▸ hfree
    · simpa [hsame] using hother
  · refine forall_update rfl ?_ ?_
    · exact ⟨start, hprogram, h.idle id hfree⟩
    · intro other entry _ hentry
      exact h.running other entry hentry

/-- **Step rule.**  The command of one call moves its own record and no other. -/
theorem tracked_resume {id : Nat}
    (hown : ∀ {shared held command changed reply}, Holds shared id held →
      execute shared id command = some (changed, reply) →
      Holds changed id (after held command reply))
    (hothers : ∀ {shared held other command changed reply}, other ≠ id →
      Holds shared other held → execute shared id command = some (changed, reply) →
      Holds changed other held)
    (hresume : world.resume execute id = some next) : Tracked after post start Holds next := by
  obtain ⟨command, rest, shared, reply, hcall, hexecute, rfl⟩ := resume_eq_some hresume
  constructor
  · intro other hother
    have hne : other ≠ id := by
      rintro rfl
      simp at hother
    apply hothers hne (h.idle other _) hexecute
    simpa [hne] using hother
  · refine forall_update rfl ?_ ?_
    · obtain ⟨held, hmeets, hholds⟩ := h.running id _ hcall
      exact ⟨after held command reply, hmeets reply, hown hholds hexecute⟩
    · intro other entry hne hentry
      obtain ⟨held, hmeets, hholds⟩ := h.running other entry hentry
      exact ⟨held, hmeets, hothers hne hholds hexecute⟩

theorem tracked_shared {changed : Shared}
    (hholds : ∀ id held, Holds world.shared id held → Holds changed id held) :
    Tracked after post start Holds { world with shared := changed } := by
  constructor
  · intro id hid
    exact hholds id start (h.idle id hid)
  · intro id program hid
    obtain ⟨held, hmeets, hheld⟩ := h.running id program hid
    exact ⟨held, hmeets, hholds id held hheld⟩

theorem Tracked.ended {id : Nat} {program : Program Reply Error Answer}
    (hcall : world.calls id = some program) (hended : program.Ended) :
    ∃ held outcome, post outcome held ∧ Holds world.shared id held := by
  obtain ⟨held, hmeets, hholds⟩ := h.running id program hcall
  cases program with
  | done answer | throw error => exact ⟨held, _, hmeets, hholds⟩
  | await command rest => exact False.elim hended

end

end Calls

end MinesApp.AwaitProgram
