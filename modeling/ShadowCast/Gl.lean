import ShadowCast.StatefulBlocks
import Mathlib.Data.Fintype.Basic
import Mathlib.Data.Multiset.ZeroCons

/-!
# OpenGL objects and their bindings

The wrappers of `src/gl` own the names of objects and bind them for a scope.  A call reports its
error by an exception, except where it creates no object and destroys or binds one: there the
process ends. The calls that fail and the answers to queries are given beforehand.
-/

namespace ShadowCast
namespace Gl

/-- What has a name. -/
inductive Kind where
  | buffer
  | framebuffer
  | program
  | shader
  | texture
  | vertexArray
  deriving DecidableEq, Repr

/-- What an object is bound to. -/
inductive Target where
  | arrayBuffer
  | elementArrayBuffer
  | drawFramebuffer
  | program
  | texture2d
  | textureExternal
  | vertexArray
  deriving DecidableEq, Repr

instance : Fintype Target :=
  ⟨{.arrayBuffer, .elementArrayBuffer, .drawFramebuffer, .program, .texture2d, .textureExternal,
    .vertexArray}, by intro target; cases target <;> decide⟩

/-- The category of a target. -/
def Target.kind : Target → Kind
  | arrayBuffer | elementArrayBuffer => .buffer
  | drawFramebuffer => .framebuffer
  | program => .program
  | texture2d | textureExternal => .texture
  | vertexArray => .vertexArray

/-- The name of no object. -/
abbrev noName : Nat := 0

/-- An object has a kind and a name. -/
abbrev Object := Kind × Nat

/-- A call, with the bindings it relies on and the objects it names.  Of its other arguments there
are the numbers that are computed. -/
structure Call where
  function : String
  bound : List (Target × Nat)
  objects : List Object
  numbers : List Int
  deriving DecidableEq, Repr

/-- A call that has no error. -/
inductive Event where
  | create (object : Object)
  | delete (object : Object)
  | bind (target : Target) (name : Nat)
  | unbind (target : Target)
  | call (call : Call)
  deriving DecidableEq, Repr

/-- The bindings and the objects of a context. -/
structure Context where
  bound : Target → Nat
  objects : Multiset Object

/-- Nothing is bound. -/
def Context.Idle (context : Context) : Prop := ∀ target, context.bound target = noName

instance (context : Context) : Decidable context.Idle :=
  inferInstanceAs (Decidable (∀ target, context.bound target = noName))

/-- Bind a name. -/
def Context.bind (context : Context) (target : Target) (name : Nat) : Context :=
  { context with bound := Function.update context.bound target name }

/-- What a call relies on. -/
def Context.Allows (context : Context) (call : Call) : Prop :=
  (∀ binding ∈ call.bound, context.bound binding.1 = binding.2 ∧ binding.2 ≠ noName) ∧
    ∀ object ∈ call.objects, object ∈ context.objects

instance (context : Context) (call : Call) : Decidable (context.Allows call) :=
  inferInstanceAs (Decidable (_ ∧ _))

/-- A step of a program that keeps to the rules: objects come and go while nothing is bound, a
target is free when it is bound, and a vertex array is bound as long as its elements are. -/
def Context.step (context : Context) : Event → Option Context
  | .create object =>
      if context.Idle then some { context with objects := object ::ₘ context.objects } else none
  | .delete object =>
      if context.Idle ∧ object ∈ context.objects then
        some { context with objects := context.objects.erase object }
      else none
  | .bind target name =>
      if context.bound target = noName ∧ name ≠ noName ∧ (target.kind, name) ∈ context.objects ∧
          (target = .elementArrayBuffer → context.bound .vertexArray ≠ noName) then
        some (context.bind target name)
      else none
  | .unbind target =>
      if context.bound target ≠ noName ∧
          (target = .vertexArray → context.bound .elementArrayBuffer = noName) then
        some (context.bind target noName)
      else none
  | .call call => if context.Allows call then some context else none

/-- The rules. -/
def rules : Machine Context Event := ⟨Context.step⟩

/-! ### Calls -/

/-- What `glGetError` returns. -/
inductive GlError where
  | invalidValue
  | invalidOperation
  | invalidEnum
  | other
  deriving DecidableEq, Repr

/-- `gl_error_to_string`. -/
def glErrorToString : GlError → String
  | .invalidValue => "GL_INVALID_VALUE"
  | .invalidOperation => "GL_INVALID_OPERATION"
  | .invalidEnum => "GL_INVALID_ENUM"
  | .other => "GL_UNKNOWN"

/-- What ends the process. -/
inductive Fault where
  /-- An object without a name is bound. -/
  | unnamed
  /-- A call that must not fail has an error. -/
  | failed
  deriving DecidableEq, Repr

/-- What GL answers, from now on: the errors of the calls, the texts of queries that fail, and the
locations of uniforms.  Names are given in turn.  The shaders of the programs are pairs of names. -/
structure Driver where
  errors : List (Option GlError)
  failures : List (Option String)
  locations : List Int
  lastName : Nat
  attached : List (Nat × Nat)
  deriving DecidableEq, Repr

/-- Statements, beside the members `μ` of an object.  Exceptions are known by their texts, without
the place in the source. -/
abbrev Run (μ : Type) : Type → Type := Stateful (Driver × μ) Event String Fault

variable {μ α : Type}

/-- The error of the next call. -/
def Driver.next (driver : Driver) : Option GlError × Driver :=
  (driver.errors.headD none, { driver with errors := driver.errors.tail })

/-- A call, and `SC_CHECK_GL_ERROR`. -/
def attemptCall (function : String) (event : Event) : Run μ Unit := fun (driver, members) =>
  match driver.next with
  | (none, driver) => ⟨[event], .returned ((), driver, members)⟩
  | (some error, driver) =>
      .throwing (function ++ " failed: " ++ glErrorToString error, driver, members)

/-- A call, and `SC_CHECK_GL_ERROR_NOEXCEPT`. -/
def mustCall (event : Event) : Run μ Unit := fun (driver, members) =>
  match driver.next with
  | (none, driver) => ⟨[event], .returned ((), driver, members)⟩
  | (some _, _) => .faulting .failed

/-- A call that concerns these bindings and objects. -/
def call (function : String) (bound : List (Target × Nat)) (objects : List Object)
    (numbers : List Int) : Run μ Unit :=
  attemptCall function (.call ⟨function, bound, objects, numbers⟩)

/-- A call that is not checked, since it has no errors. -/
def plainCall (function : String) : Run μ Unit := fun state =>
  ⟨[.call ⟨function, [], [], []⟩], .returned ((), state)⟩

/-- The answer to the next query: the text of a failure, if it is one. -/
def nextFailure : Run μ (Option String) := fun (driver, members) =>
  Pure.pure (driver.failures.headD none, { driver with failures := driver.failures.tail }, members)

/-- A query of an object.  A failure is thrown with the text of the object's log. -/
def expectSuccess (query infoLog what : String) (object : Object) : Run μ Unit := do
  call query [] [object] []
  match ← nextFailure with
  | none => pure ()
  | some log => do
      call infoLog [] [object] []
      Stateful.throwing (what ++ log)

/-! ### Objects -/

/-- The function that creates objects of a kind. -/
def Kind.creates : Kind → String
  | buffer => "glGenBuffers"
  | framebuffer => "glGenFramebuffers"
  | program => "glCreateProgram"
  | shader => "glCreateShader"
  | texture => "glGenTextures"
  | vertexArray => "glGenVertexArrays"

/-- `create`. -/
def create (kind : Kind) : Run μ Nat := do
  let (driver, _) ← Stateful.get
  let name := driver.lastName + 1
  attemptCall kind.creates (.create (kind, name))
  Stateful.modify fun (driver, members) => ({ driver with lastName := name }, members)
  pure name

/-- The destructor of an object. -/
def destroy (object : Object) : Run μ Unit :=
  if object.2 = noName then pure () else mustCall (.delete object)

/-- A local object which is moved from in the end, unless there is an exception. -/
def withObject (kind : Kind) (rest : Nat → Run μ α) : Run μ α := do
  let name ← create kind
  Stateful.onThrow (destroy (kind, name)) (rest name)

/-- `BoundTarget`, up to the end of its scope. -/
def withBinding (target : Target) (name : Nat) (rest : Run μ α) : Run μ α :=
  if name = noName then Stateful.faulting .unnamed
  else do
    mustCall (.bind target name)
    Stateful.scopeGuard (mustCall (.unbind target)) rest

/-! ### Buffers, vertex arrays and textures -/

/-- `buffer_data`. -/
def bufferData (target : Target) (buffer : Nat) : Run μ Unit :=
  call "glBufferData" [(target, buffer)] [] []

/-- `vertex_attrib_pointer`. -/
def vertexAttribPointer (buffer index size : Nat) : Run μ Unit :=
  call "glVertexAttribPointer" [(.arrayBuffer, buffer)] [] [index, size]

/-- `enable_vertex_array_attrib`. -/
def enableVertexArrayAttrib (vertexArray index : Nat) : Run μ Unit :=
  call "glEnableVertexArrayAttrib" [(.vertexArray, vertexArray)] [] [index]

/-- `texture_image_2d`. -/
def textureImage2d (texture : Nat) (width height : UInt32) : Run μ Unit :=
  call "glTexImage2D" [(.texture2d, texture)] [] [width.toNat, height.toNat]

/-- `texture_parameter`. -/
def textureParameter (texture : Nat) : Run μ Unit :=
  call "glTexParameterT" [(.texture2d, texture)] [] []

/-! ### Shaders and programs -/

/-- `create_shader`, up to the end of the shader's scope. -/
def withShader (rest : Nat → Run μ α) : Run μ α := do
  let name ← create .shader
  Stateful.scopeGuard (destroy (.shader, name)) (rest name)

/-- `shader_source` and `compile_shader`. -/
def compileShader (shader : Nat) : Run μ Unit := do
  call "glShaderSource" [] [(.shader, shader)] []
  call "glCompileShader" [] [(.shader, shader)] []
  expectSuccess "glGetShaderiv" "glGetShaderInfoLog" "Shader compilation failed - "
    (.shader, shader)

/-- `attach_shader`.  It does not count the shaders of the program. -/
def attachShader (program shader : Nat) : Run μ Unit := do
  call "glAttachShader" [] [(.program, program), (.shader, shader)] []
  Stateful.modify fun (driver, members) =>
    ({ driver with attached := driver.attached ++ [(program, shader)] }, members)

/-- The loop of `detach_shaders`. -/
def detachEach (program : Nat) : List Nat → Run μ Unit
  | [] => pure ()
  | shader :: shaders => do
      call "glDetachShader" [] [(.program, program), (.shader, shader)] []
      Stateful.modify fun (driver, members) =>
        ({ driver with attached := driver.attached.erase (program, shader) }, members)
      detachEach program shaders

/-- `detach_shaders`, with the number of shaders that have been counted. -/
def detachShaders (program numShadersAttached : Nat) : Run μ Unit := do
  call "glGetAttachedShaders" [] [(.program, program)] [(min numShadersAttached 10 : Nat)]
  let (driver, _) ← Stateful.get
  let shaders := (driver.attached.filter (·.1 = program)).map (·.2)
  detachEach program (shaders.take (min numShadersAttached 10))

/-- `link_program`. -/
def linkProgram (program numShadersAttached : Nat) : Run μ Unit := do
  call "glLinkProgram" [] [(.program, program)] []
  expectSuccess "glGetProgramiv GL_LINK_STATUS" "glGetProgramInfoLog" "failed linking program - "
    (.program, program)
  detachShaders program numShadersAttached

/-- `validate_program`. -/
def validateProgram (program : Nat) : Run μ Unit := do
  call "glValidateProgram" [] [(.program, program)] []
  expectSuccess "glGetProgramiv GL_VALIDATE_STATUS" "glGetProgramInfoLog" "failed validation - "
    (.program, program)

/-- `get_uniform_location`. -/
def getUniformLocation (program : Nat) : Run μ Int := do
  call "glGetUniformLocation" [] [(.program, program)] []
  let (driver, _) ← Stateful.get
  Stateful.modify fun (driver, members) =>
    ({ driver with locations := driver.locations.tail }, members)
  pure (driver.locations.headD (-1))

/-- `uniform`, of two numbers. -/
def uniform (program : Nat) (location first second : Int) : Run μ Unit :=
  call "glUniform2fv" [(.program, program)] [] [location, first, second]

/-! ### Framebuffers and drawing -/

/-- `framebuffer_texture`. -/
def framebufferTexture (framebuffer texture : Nat) : Run μ Unit :=
  call "glFramebufferTexture" [(.drawFramebuffer, framebuffer)] [(.texture, texture)] []

/-- `draw_buffers`. -/
def drawBuffers (framebuffer : Nat) : Run μ Unit :=
  call "glDrawBuffers" [(.drawFramebuffer, framebuffer)] [] []

/-- `check_framebuffer_status`. -/
def checkFramebufferStatus (framebuffer : Nat) : Run μ Unit := do
  call "glCheckFramebufferStatus" [(.drawFramebuffer, framebuffer)] [] []
  match ← nextFailure with
  | none => pure ()
  | some status => Stateful.throwing status

/-- `viewport`, of this framebuffer. -/
def viewport (framebuffer : Nat) (width height : UInt32) : Run μ Unit :=
  call "glViewport" [(.drawFramebuffer, framebuffer)] [] [0, 0, width.toNat, height.toNat]

/-- `clear`, of this framebuffer. -/
def clear (framebuffer : Nat) : Run μ Unit :=
  call "glClear" [(.drawFramebuffer, framebuffer)] [] []

/-- `draw_elements`, from this texture to this framebuffer. -/
def drawElements (vertexArray elements program framebuffer texture : Nat) : Run μ Unit :=
  call "glDrawElements" [(.vertexArray, vertexArray), (.elementArrayBuffer, elements),
    (.program, program), (.drawFramebuffer, framebuffer), (.textureExternal, texture)] [] []

end Gl
end ShadowCast
