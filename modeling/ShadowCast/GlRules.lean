import ShadowCast.Gl

/-!
# Scopes of bindings and of objects

Whatever fails, a scope gives back the bindings it makes and destroys the objects it owns.  Calls
that find what they rely on are quiet: the context is the same behind them.
-/

namespace ShadowCast
namespace Gl

open Stateful

variable {μ κ α β : Type} {context : Context} {members : μ}

/-- The rules are kept from here on, whatever GL answers. -/
def Ensures (context : Context) (members : μ) (statement : Run μ α)
    (leaves : Except String α → μ → Context → Prop) : Prop :=
  ∀ driver, Meets rules context (driver, members) statement fun outcome state =>
    leaves outcome state.2

namespace Ensures

variable {leaves : Except String α → μ → Context → Prop}

theorem mono {statement : Run μ α} {leaves' : Except String α → μ → Context → Prop}
    (ensures : Ensures context members statement leaves)
    (weaker : ∀ outcome members context, leaves outcome members context →
      leaves' outcome members context) :
    Ensures context members statement leaves' :=
  fun driver => (ensures driver).mono fun outcome state context => weaker outcome state.2 context

theorem pure {value : α} (holds : leaves (.ok value) members context) :
    Ensures context members (Pure.pure value) leaves :=
  fun _ => Meets.pure holds

theorem throwing {exception : String} (holds : leaves (.error exception) members context) :
    Ensures context members (Stateful.throwing exception) leaves :=
  fun _ => Meets.throwing holds

/-- What must hold behind the first part of a sequence. -/
def Continues (second : β → Run μ α) (leaves : Except String α → μ → Context → Prop) :
    Except String β → μ → Context → Prop
  | .ok value, members, context => Ensures context members (second value) leaves
  | .error exception, members, context => leaves (.error exception) members context

theorem bind {first : Run μ β} {second : β → Run μ α}
    (ensures : Ensures context members first (Continues second leaves)) :
    Ensures context members (first >>= second) leaves := by
  refine fun driver => Meets.bind ((ensures driver).mono ?_)
  rintro (exception | value) state held holds
  · exact holds
  · exact holds state.1

/-- The rest may read the members. -/
theorem get_bind {second : Driver × μ → Run μ α}
    (ensures : ∀ driver, Ensures context members (second (driver, members)) leaves) :
    Ensures context members (Stateful.get >>= second) leaves :=
  fun driver => Meets.get_bind (ensures driver driver)

/-- The members are changed. -/
theorem modify {change : Driver × μ → Driver × μ}
    {leaves : Except String Unit → μ → Context → Prop}
    (holds : ∀ driver, leaves (.ok ()) (change (driver, members)).2 context) :
    Ensures context members (Stateful.modify change) leaves :=
  fun driver => Meets.modify (holds driver)

/-- An event that the rules allow. -/
theorem keeps_event {event : Event} {after : Context} {driver : Driver}
    {leaves : Except String Unit → μ → Context → Prop} (step : context.step event = some after)
    (holds : leaves (.ok ()) members after) :
    rules.Keeps context
      (⟨[event], .returned ((), driver, members)⟩ : Block Event (String × Driver × μ) Fault _)
      (Leaves fun outcome state => leaves outcome state.2) :=
  ⟨after, by simp [Machine.run, rules, step], holds⟩

/-- A call that may throw. -/
theorem attemptCall {function : String} {event : Event} {after : Context}
    {leaves : Except String Unit → μ → Context → Prop} (step : context.step event = some after)
    (threw : ∀ what, leaves (.error what) members context)
    (returned : leaves (.ok ()) members after) :
    Ensures context members (Gl.attemptCall function event) leaves := by
  intro driver
  unfold Gl.attemptCall Meets Driver.next
  dsimp only
  cases driver.errors.headD none
  · exact keeps_event step returned
  · exact ⟨context, rfl, threw _⟩

/-- A call that ends the process if it fails. -/
theorem mustCall {event : Event} {after : Context}
    {leaves : Except String Unit → μ → Context → Prop} (step : context.step event = some after)
    (returned : leaves (.ok ()) members after) :
    Ensures context members (Gl.mustCall event) leaves := by
  intro driver
  unfold Gl.mustCall Meets Driver.next
  dsimp only
  cases driver.errors.headD none
  · exact keeps_event step returned
  · exact ⟨context, rfl, trivial⟩

theorem mustCall_bind {event : Event} {after : Context} {rest : Unit → Run μ α}
    (step : context.step event = some after)
    (ensures : Ensures after members (rest ()) leaves) :
    Ensures context members (Gl.mustCall event >>= rest) leaves :=
  bind (mustCall step ensures)

/-- A statement whose exceptions are handled. -/
theorem attempt {statement : Run μ α}
    {leaves : Except String (Except String α) → μ → Context → Prop}
    (ensures : Ensures context members statement fun outcome => leaves (.ok outcome)) :
    Ensures context members (Stateful.attempt statement) leaves :=
  fun driver => Meets.attempt (ensures driver)

/-- A guard and its scope. -/
theorem scopeGuard {cleanup : Run μ Unit} {rest : Run μ α}
    (ensures : Ensures context members rest fun outcome members context =>
      Ensures context members cleanup fun cleaned members context =>
        cleaned = .ok () ∧ leaves outcome members context) :
    Ensures context members (Stateful.scopeGuard cleanup rest) leaves :=
  fun driver => Meets.scopeGuard ((ensures driver).mono fun _ state _ holds => holds state.1)

/-- What must hold behind a scope with a guard for exceptions. -/
def Clears (cleanup : Run μ Unit) (leaves : Except String α → μ → Context → Prop) :
    Except String α → μ → Context → Prop
  | .ok value, members, context => leaves (.ok value) members context
  | .error exception, members, context =>
      Ensures context members cleanup fun cleaned members context =>
        cleaned = .ok () ∧ leaves (.error exception) members context

/-- A guard for exceptions. -/
theorem onThrow {cleanup : Run μ Unit} {rest : Run μ α}
    (ensures : Ensures context members rest (Clears cleanup leaves)) :
    Ensures context members (Stateful.onThrow cleanup rest) leaves := by
  refine fun driver => Meets.onThrow ((ensures driver).mono ?_)
  rintro (exception | value) state held holds
  · exact holds state.1
  · exact holds

end Ensures

/-! ### Objects -/

/-- An object that has been created. -/
theorem create_ensures {kind : Kind} {leaves : Except String Nat → μ → Context → Prop}
    (idle : context.Idle) (threw : ∀ what, leaves (.error what) members context)
    (returned : ∀ name, name ≠ noName →
      leaves (.ok name) members { context with objects := (kind, name) ::ₘ context.objects }) :
    Ensures context members (create kind) leaves := by
  refine Ensures.get_bind fun driver => Ensures.bind ?_
  have step (object : Object) : context.step (.create object) =
      some { context with objects := object ::ₘ context.objects } := if_pos idle
  refine Ensures.attemptCall (step _) threw (Ensures.bind ?_)
  exact Ensures.modify fun _ => Ensures.pure (returned _ (Nat.succ_ne_zero _))

/-- An object that is destroyed, if there is one. -/
theorem destroy_ensures {object : Object} {leaves : Except String Unit → μ → Context → Prop}
    (idle : context.Idle) (member : object.2 ≠ noName → object ∈ context.objects)
    (returned : leaves (.ok ()) members
      { context with objects := if object.2 = noName then context.objects else
          context.objects.erase object }) :
    Ensures context members (destroy object) leaves := by
  unfold destroy
  by_cases none : object.2 = noName
  · rw [if_pos none] at returned ⊢
    exact Ensures.pure returned
  · rw [if_neg none] at returned ⊢
    exact Ensures.mustCall (if_pos ⟨idle, member none⟩) returned

/-- The clean-up of a local object. -/
theorem destroy_local {object : Object} {others : Multiset Object} {leaves : μ → Context → Prop}
    (idle : context.Idle) (named : object.2 ≠ noName) (held : context.objects = object ::ₘ others)
    (holds : leaves members { context with objects := others }) :
    Ensures context members (destroy object) fun cleaned members context =>
      cleaned = .ok () ∧ leaves members context := by
  have member : object ∈ context.objects := by
    rw [held]
    exact Multiset.mem_cons_self _ _
  refine destroy_ensures idle (fun _ => member) ⟨rfl, ?_⟩
  rwa [if_neg named, held, Multiset.erase_cons_head]

/-! ### Bindings -/

/-- What keeps the members, up to what `kept` sees of them, and the context. -/
def Quiet (kept : μ → κ) (context : Context) (statement : Run μ α) : Prop :=
  ∀ members, Ensures context members statement fun _ members' context' =>
    kept members' = kept members ∧ context' = context

namespace Quiet

variable {kept : μ → κ}

theorem pure {value : α} : Quiet kept context (Pure.pure value) :=
  fun _ => Ensures.pure ⟨rfl, rfl⟩

theorem throwing {exception : String} :
    Quiet kept context (Stateful.throwing exception : Run μ α) :=
  fun _ => Ensures.throwing ⟨rfl, rfl⟩

theorem modify {change : Driver × μ → Driver × μ}
    (same : ∀ state, kept (change state).2 = kept state.2) :
    Quiet kept context (Stateful.modify change) :=
  fun _ => Ensures.modify fun _ => ⟨same _, rfl⟩

theorem bind {first : Run μ β} {second : β → Run μ α} (quiet : Quiet kept context first)
    (later : ∀ value, Quiet kept context (second value)) :
    Quiet kept context (first >>= second) := by
  refine fun members => Ensures.bind ((quiet members).mono ?_)
  rintro (exception | value) members' context' ⟨same, rfl⟩
  · exact ⟨same, rfl⟩
  · have rest := later value members'
    rw [same] at rest
    exact rest

theorem get_bind {second : Driver × μ → Run μ α}
    (quiet : ∀ driver members, Quiet kept context (second (driver, members))) :
    Quiet kept context (Stateful.get >>= second) :=
  fun members => Ensures.get_bind fun driver => quiet driver members members

/-- A call that finds what it relies on. -/
theorem call {function : String} {bound : List (Target × Nat)} {objects : List Object}
    {numbers : List Int} (allowed : context.Allows ⟨function, bound, objects, numbers⟩) :
    Quiet kept context (Gl.call function bound objects numbers : Run μ Unit) :=
  fun _ => Ensures.attemptCall (if_pos allowed) (fun _ => ⟨rfl, rfl⟩) ⟨rfl, rfl⟩

theorem nextFailure : Quiet kept context (Gl.nextFailure : Run μ (Option String)) :=
  fun _ _ => Machine.Keeps.pure ⟨rfl, rfl⟩

theorem plainCall {function : String} :
    Quiet kept context (Gl.plainCall function : Run μ Unit) :=
  fun members _ => by
    have allowed : context.Allows ⟨function, [], [], []⟩ := ⟨by simp, by simp⟩
    have step : context.step (.call ⟨function, [], [], []⟩) = some context := by
      simp [Context.step, allowed]
    exact @Ensures.keeps_event _ _ members _ _ _
      (fun _ members' context' => kept members' = kept members ∧ context' = context) step
      ⟨rfl, rfl⟩

/-- The scope of a binding. -/
theorem withBinding {target : Target} {name : Nat} {rest : Run μ α}
    (free : context.bound target = noName)
    (live : name ≠ noName → (target.kind, name) ∈ context.objects)
    (array : target = .elementArrayBuffer → context.bound .vertexArray ≠ noName)
    (elements : target = .vertexArray → context.bound .elementArrayBuffer = noName)
    (quiet : name ≠ noName → Quiet kept (context.bind target name) rest) :
    Quiet kept context (Gl.withBinding target name rest) := by
  intro members
  unfold Gl.withBinding
  by_cases unnamed : name = noName
  · rw [if_pos unnamed]
    exact fun _ => Meets.faulting
  rw [if_neg unnamed]
  refine Ensures.mustCall_bind (if_pos ⟨free, unnamed, live unnamed, array⟩) ?_
  refine Ensures.scopeGuard (Ensures.mono (quiet unnamed members) ?_)
  rintro outcome members' _ ⟨same, rfl⟩
  have bound : (context.bind target name).bound target ≠ noName := by
    simpa [Context.bind] using unnamed
  have kept (isArray : target = .vertexArray) :
      (context.bind target name).bound .elementArrayBuffer = noName := by
    simpa [Context.bind, isArray] using elements isArray
  have restored : (context.bind target name).bind target noName = context := by
    simp only [Context.bind, Function.update_idem]
    rw [← free, Function.update_eq_self]
  exact Ensures.mustCall (if_pos ⟨bound, kept⟩) ⟨rfl, same, restored⟩

/-! ### Shaders and programs -/

variable {shader shaderProgram : Nat}

theorem expectSuccess {query infoLog what : String} {object : Object}
    (live : object ∈ context.objects) :
    Quiet kept context (Gl.expectSuccess query infoLog what object : Run μ Unit) := by
  have allowed (function : String) : context.Allows ⟨function, [], [object], []⟩ :=
    ⟨by simp, by simpa using live⟩
  refine (call (allowed query)).bind fun _ => nextFailure.bind fun failure => ?_
  cases failure with
  | none => exact pure
  | some log => exact (call (allowed infoLog)).bind fun _ => throwing

theorem compileShader (live : (.shader, shader) ∈ context.objects) :
    Quiet kept context (Gl.compileShader shader : Run μ Unit) := by
  have allowed (function : String) : context.Allows ⟨function, [], [(.shader, shader)], []⟩ :=
    ⟨by simp, by simpa using live⟩
  exact (call (allowed _)).bind fun _ => (call (allowed _)).bind fun _ => expectSuccess live

theorem attachShader (program : (.program, shaderProgram) ∈ context.objects)
    (live : (.shader, shader) ∈ context.objects) :
    Quiet kept context (Gl.attachShader shaderProgram shader : Run μ Unit) := by
  have allowed : context.Allows
      ⟨"glAttachShader", [], [(.program, shaderProgram), (.shader, shader)], []⟩ :=
    ⟨by simp, by simp [program, live]⟩
  exact (call allowed).bind fun _ => modify fun _ => rfl

/-- Without shaders that have been counted, none is detached. -/
theorem linkProgram (live : (.program, shaderProgram) ∈ context.objects) :
    Quiet kept context (Gl.linkProgram shaderProgram 0 : Run μ Unit) := by
  have allowed (function : String) (numbers : List Int) :
      context.Allows ⟨function, [], [(.program, shaderProgram)], numbers⟩ :=
    ⟨by simp, by simpa using live⟩
  refine (call (allowed _ _)).bind fun _ => (expectSuccess live).bind fun _ => ?_
  refine (call (allowed _ _)).bind fun _ => get_bind fun driver members => ?_
  exact pure

theorem validateProgram (live : (.program, shaderProgram) ∈ context.objects) :
    Quiet kept context (Gl.validateProgram shaderProgram : Run μ Unit) := by
  have allowed : context.Allows ⟨"glValidateProgram", [], [(.program, shaderProgram)], []⟩ :=
    ⟨by simp, by simpa using live⟩
  exact (call allowed).bind fun _ => expectSuccess live

theorem getUniformLocation (live : (.program, shaderProgram) ∈ context.objects) :
    Quiet kept context (Gl.getUniformLocation shaderProgram : Run μ Int) := by
  have allowed : context.Allows ⟨"glGetUniformLocation", [], [(.program, shaderProgram)], []⟩ :=
    ⟨by simp, by simpa using live⟩
  refine (call allowed).bind fun _ => get_bind fun driver members => ?_
  exact bind (modify fun _ => rfl) fun _ => pure

end Quiet

end Gl
end ShadowCast
