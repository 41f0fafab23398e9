import ShadowCast.ColorConverter
import ShadowCast.GlRules
import Mathlib.Algebra.Order.BigOperators.Group.List
import Mathlib.Algebra.Order.Group.Multiset
import Mathlib.Tactic.Abel

/-!
# A color converter owns its objects

Between two operations nothing is bound and the objects are those of the members, also when
`initialize` has thrown behind its first members.
-/

namespace ShadowCast
namespace ColorConverter

open Gl

variable {context : Context} {converter : ColorConverter}

/-- The members that concern objects. -/
def kept (converter : ColorConverter) : (Member → Nat) × Bool :=
  (converter.names, converter.initialized)

/-- The object of a name, if it is one. -/
def owned (object : Gl.Object) : Multiset Gl.Object := if object.2 = noName then 0 else {object}

/-- The objects of the members. -/
def objects (names : Member → Nat) (members : List Member) : Multiset Gl.Object :=
  (members.map fun member => owned (member.kind, names member)).sum

theorem owned_of_ne {object : Gl.Object} (named : object.2 ≠ noName) : owned object = {object} :=
  if_neg named

theorem mem_objects {names : Member → Nat} {member : Member} (named : names member ≠ noName) :
    (member.kind, names member) ∈ objects names Member.all := by
  cases member <;> simp [objects, Member.all, owned, named]

/-- A member's object is replaced. -/
theorem objects_update (names : Member → Nat) (member : Member) (name : Nat) :
    objects (Function.update names member name) Member.all + owned (member.kind, names member) =
      objects names Member.all + owned (member.kind, name) := by
  cases member <;> simp [objects, Member.all, Function.update_apply] <;> abel

/-! ### Setting up -/

/-- Nothing is bound, and beside the members' objects there are these. -/
structure Before (others : Multiset Gl.Object) (converter : ColorConverter) (context : Context) :
    Prop where
  idle : context.Idle
  initialized : converter.initialized = false
  objects : context.objects = objects converter.names Member.all + others

/-- What must hold behind a part of `initialize`, in the scope of these shaders and objects. -/
def Sets (shaders locals : Multiset Gl.Object) :
    Except String Unit → ColorConverter → Context → Prop
  | .ok _, converter, context => context.Idle ∧ converter.initialized = true ∧
      (∀ member, converter.names member ≠ noName) ∧
      context.objects = objects converter.names Member.all + shaders
  | .error _, converter, context => Before (shaders + locals) converter context

variable {shaders locals : Multiset Gl.Object} {rest : Nat → Step Unit}

/-- An object that is created, and the rest behind it. -/
theorem create_bind {α : Type} {kind : Kind} {others : Multiset Gl.Object} {second : Nat → Step α}
    {leaves : Except String α → ColorConverter → Context → Prop}
    (before : Before others converter context)
    (threw : ∀ what, leaves (.error what) converter context)
    (ensures : ∀ name context, name ≠ noName →
      Before (others + {(kind, name)}) converter context →
      Ensures context converter (second name) leaves) :
    Ensures context converter (create kind >>= second) leaves := by
  refine Ensures.bind (create_ensures before.idle threw fun name named => ?_)
  refine ensures name _ named ⟨before.idle, before.initialized, ?_⟩
  dsimp only
  rw [← Multiset.singleton_add, before.objects]
  abel

/-- A local object, which is a member's in the end. -/
theorem withObject_sets {kind : Kind} (before : Before (shaders + locals) converter context)
    (ensures : ∀ name context, name ≠ noName →
      Before (shaders + (locals + {(kind, name)})) converter context →
      Ensures context converter (rest name) (Sets shaders (locals + {(kind, name)}))) :
    Ensures context converter (withObject kind rest) (Sets shaders locals) := by
  refine create_bind before (fun _ => before) fun name context named created => ?_
  rw [Multiset.add_assoc] at created
  refine Ensures.onThrow ((ensures name context named created).mono ?_)
  rintro (what | done) converter' context' sets
  · have held : context'.objects = (kind, name) ::ₘ
        (objects converter'.names Member.all + (shaders + locals)) := by
      rw [← Multiset.singleton_add, sets.objects]
      abel
    exact destroy_local sets.idle named held ⟨sets.idle, sets.initialized, rfl⟩
  · exact sets

/-- A shader, up to the end of its scope. -/
theorem withShader_sets (before : Before (shaders + locals) converter context)
    (ensures : ∀ name context, name ≠ noName →
      Before (shaders + {(.shader, name)} + locals) converter context →
      Ensures context converter (rest name) (Sets (shaders + {(.shader, name)}) locals)) :
    Ensures context converter (withShader rest) (Sets shaders locals) := by
  refine create_bind before (fun _ => before) fun name context named created => ?_
  rw [add_right_comm] at created
  refine Ensures.scopeGuard ((ensures name context named created).mono ?_)
  rintro (what | done) converter' context' sets
  · have held : context'.objects = (.shader, name) ::ₘ
        (objects converter'.names Member.all + (shaders + locals)) := by
      rw [← Multiset.singleton_add, sets.objects]
      abel
    exact destroy_local sets.idle named held ⟨sets.idle, sets.initialized, rfl⟩
  · obtain ⟨idle, initialized, names, objects'⟩ := sets
    have held : context'.objects = (.shader, name) ::ₘ
        (objects converter'.names Member.all + shaders) := by
      rw [← Multiset.singleton_add, objects']
      abel
    exact destroy_local idle named held ⟨idle, initialized, names, rfl⟩

/-- A quiet statement, and the rest of `initialize` behind it. -/
theorem quiet_bind {α β : Type} {others : Multiset Gl.Object} {first : Step α} {second : α → Step β}
    {leaves : Except String β → ColorConverter → Context → Prop}
    (quiet : Quiet kept context first) (before : Before others converter context)
    (threw : ∀ what converter, Before others converter context →
      leaves (.error what) converter context)
    (ensures : ∀ value converter', converter'.names = converter.names →
      Before others converter' context → Ensures context converter' (second value) leaves) :
    Ensures context converter (first >>= second) leaves := by
  refine Ensures.bind ((quiet converter).mono ?_)
  rintro outcome converter' context' ⟨same, rfl⟩
  obtain ⟨names, initialized⟩ := Prod.mk.inj same
  have before' : Before others converter' context' :=
    ⟨before.idle, initialized.trans before.initialized, names ▸ before.objects⟩
  cases outcome with
  | error what => exact threw what converter' before'
  | ok value => exact ensures value converter' names before'

/-- A member is assigned, and the rest behind it. -/
theorem assign_bind {member : Member} {name : Nat} {others : Multiset Gl.Object}
    {second : Unit → Step Unit} {leaves : Except String Unit → ColorConverter → Context → Prop}
    (named : name ≠ noName) (before : Before (others + {(member.kind, name)}) converter context)
    (ensures : ∀ converter' context',
      converter'.names = Function.update converter.names member name →
      Before others converter' context' → Ensures context' converter' (second ()) leaves) :
    Ensures context converter (assign member name >>= second) leaves := by
  have new : owned (member.kind, name) = {(member.kind, name)} := owned_of_ne named
  have update := objects_update converter.names member name
  rw [new] at update
  have held : context.objects = owned (member.kind, converter.names member) +
      (objects (Function.update converter.names member name) Member.all + others) := by
    calc context.objects
        = objects converter.names Member.all + {(member.kind, name)} + others := by
          rw [before.objects]
          abel
      _ = owned (member.kind, converter.names member) +
          (objects (Function.update converter.names member name) Member.all + others) := by
          rw [← update]
          abel
  refine Ensures.bind (Ensures.get_bind fun _ => Ensures.bind (Ensures.modify fun _ => ?_))
  refine destroy_ensures before.idle (fun old => ?_)
    (ensures _ _ rfl ⟨before.idle, before.initialized, ?_⟩)
  · rw [held, owned_of_ne old]
    exact Multiset.mem_add.mpr (.inl (Multiset.mem_singleton_self _))
  · by_cases none : converter.names member = noName
    · rw [if_pos none, held, owned, if_pos none, Multiset.zero_add]
    · rw [if_neg none, held, owned, if_neg none, Multiset.singleton_add,
        Multiset.erase_cons_head]

/-! ### The parts of `initialize` -/

theorem describeVertices_quiet {vao vertexBuffer textureCoordsBuffer indexBuffer : Nat}
    (idle : context.Idle) (live : (.vertexArray, vao) ∈ context.objects)
    (vertices : (.buffer, vertexBuffer) ∈ context.objects)
    (coords : (.buffer, textureCoordsBuffer) ∈ context.objects)
    (indices : (.buffer, indexBuffer) ∈ context.objects) :
    Quiet kept context
      (describeVertices vao vertexBuffer textureCoordsBuffer indexBuffer) := by
  have describe (buffer index size : Nat) (member : (.buffer, buffer) ∈ context.objects)
      (named : vao ≠ noName) :
      Quiet kept (context.bind .vertexArray vao) (describeAttribute vao buffer index size) := by
    refine Quiet.withBinding ?_ (fun _ => member) (by simp) (by simp) fun named' => ?_
    · simp [Context.bind, idle _]
    · refine Quiet.bind (Quiet.call ?_) fun _ => Quiet.bind (Quiet.call ?_) fun _ =>
        Quiet.call ?_
      all_goals simp [Context.Allows, Context.bind, named, named', Function.update_apply]
  refine Quiet.withBinding (idle _) (fun _ => live) (by simp) (fun _ => idle _) fun named => ?_
  refine Quiet.bind (describe _ _ _ vertices named) fun _ => ?_
  refine Quiet.bind (describe _ _ _ coords named) fun _ => ?_
  refine Quiet.withBinding ?_ (fun _ => indices) ?_ (by simp) fun named' => Quiet.call ?_
  all_goals simp [Context.Allows, Context.bind, named, idle _, Function.update_apply]
  exact named'

theorem describeTexture_quiet {texture : Nat} {width height : UInt32} (idle : context.Idle)
    (live : (.texture, texture) ∈ context.objects) :
    Quiet kept context (describeTexture texture width height) := by
  refine Quiet.withBinding (idle _) (fun _ => live) (by simp) (fun _ => idle _) fun named => ?_
  refine Quiet.bind (Quiet.call ?_) fun _ => Quiet.bind (Quiet.call ?_) fun _ => Quiet.call ?_
  all_goals simp [Context.Allows, Context.bind, named]

theorem buildProgram_quiet {linked vertexShader fragmentShader : Nat}
    (live : (.program, linked) ∈ context.objects)
    (vertex : (.shader, vertexShader) ∈ context.objects)
    (fragment : (.shader, fragmentShader) ∈ context.objects) :
    Quiet kept context (buildProgram linked vertexShader fragmentShader) := by
  refine (Quiet.attachShader live vertex).bind fun _ => ?_
  refine (Quiet.attachShader live fragment).bind fun _ => ?_
  exact (Quiet.linkProgram live).bind fun _ => Quiet.validateProgram live

theorem locateUniforms_quiet {linked : Nat} {width height : UInt32} (idle : context.Idle)
    (live : (.program, linked) ∈ context.objects) :
    Quiet kept context (locateUniforms linked width height) := by
  refine Quiet.withBinding (idle _) (fun _ => live) (by simp) (fun _ => idle _) fun named => ?_
  have located : Quiet kept (context.bind .program linked) (getUniformLocation linked) :=
    Quiet.getUniformLocation live
  refine located.bind fun _ => Quiet.bind (Quiet.call ?_) fun _ => located.bind fun _ => ?_
  · simp [Context.Allows, Context.bind, named]
  refine Quiet.bind (Quiet.modify fun _ => rfl) fun _ => ?_
  exact located.bind fun _ => Quiet.modify fun _ => rfl

theorem describeFramebuffer_quiet {fbo outputTexture : Nat} (idle : context.Idle)
    (live : (.framebuffer, fbo) ∈ context.objects)
    (texture : (.texture, outputTexture) ∈ context.objects) :
    Quiet kept context (describeFramebuffer fbo outputTexture) := by
  refine Quiet.withBinding (idle _) (fun _ => live) (by simp) (fun _ => idle _) fun named => ?_
  refine Quiet.bind (Quiet.call ?_) fun _ => Quiet.bind (Quiet.call ?_) fun _ => ?_
  · simp [Context.Allows]
  · simp [Context.Allows]
  refine Quiet.bind (Quiet.call ?_) fun _ => Quiet.bind (Quiet.call ?_) fun _ => ?_
  · simpa [Context.Allows, Context.bind, named] using texture
  · simp [Context.Allows, Context.bind, named]
  refine Quiet.bind (Quiet.call ?_) fun _ => Quiet.nextFailure.bind fun failure => ?_
  · simp [Context.Allows, Context.bind, named]
  · cases failure with
    | none => exact Quiet.pure
    | some status => exact Quiet.throwing

/-- The objects that become members in the end. -/
def prepared (vao vertexBuffer textureCoordsBuffer indexBuffer outputTexture frameProgram
    mouseProgram : Nat) : Multiset Gl.Object :=
  {(.program, mouseProgram)} + {(.program, frameProgram)} + {(.buffer, indexBuffer)} +
    {(.buffer, textureCoordsBuffer)} + {(.buffer, vertexBuffer)} + {(.vertexArray, vao)} +
    {(.texture, outputTexture)}

/-- The last part of `initialize`.  It may throw behind the first members. -/
theorem finish_sets {vao vertexBuffer textureCoordsBuffer indexBuffer outputTexture frameProgram
    mouseProgram : Nat}
    (named : ∀ name ∈ [vao, vertexBuffer, textureCoordsBuffer, indexBuffer, outputTexture,
      frameProgram, mouseProgram], name ≠ noName)
    (before : Before (shaders + prepared vao vertexBuffer textureCoordsBuffer indexBuffer
      outputTexture frameProgram mouseProgram) converter context) :
    Ensures context converter (finish vao vertexBuffer textureCoordsBuffer indexBuffer
        outputTexture frameProgram mouseProgram)
      (Sets shaders (prepared vao vertexBuffer textureCoordsBuffer indexBuffer outputTexture
        frameProgram mouseProgram)) := by
  have texture : (.texture, outputTexture) ∈ context.objects := by
    rw [before.objects]
    simp [prepared]
  -- The framebuffer is local at first.
  refine Ensures.bind (create_bind before (fun _ => before) fun fbo context' fboNamed created => ?_)
  refine Ensures.onThrow (quiet_bind (describeFramebuffer_quiet created.idle ?_ ?_) created ?_ ?_)
  · rw [created.objects]
    simp
  · rw [created.objects]
    simp [prepared]
  · intro what converter' failed
    have held : context'.objects = (.framebuffer, fbo) ::ₘ (objects converter'.names Member.all +
        (shaders + prepared vao vertexBuffer textureCoordsBuffer indexBuffer outputTexture
          frameProgram mouseProgram)) := by
      rw [← Multiset.singleton_add, failed.objects]
      abel
    exact destroy_local failed.idle fboNamed held ⟨failed.idle, failed.initialized, rfl⟩
  intro _ converter₀ names₀ attached
  refine Ensures.pure (assign_bind fboNamed attached fun converter₁ context₁ names₁ before₁ => ?_)
  refine create_bind before₁ (fun _ => before₁) fun input context₂ inputNamed before₂ => ?_
  refine assign_bind inputNamed before₂ fun converter₃ context₃ names₃ before₃ => ?_
  refine create_bind before₃ (fun _ => before₃) fun mouse context₄ mouseNamed before₄ => ?_
  refine assign_bind mouseNamed before₄ fun converter₅ context₅ names₅ before₅ => ?_
  -- The other members take the objects over one by one.
  simp only [prepared, ← Multiset.add_assoc] at before₅
  refine assign_bind (named _ (by simp)) before₅ fun converter₆ context₆ names₆ before₆ => ?_
  refine assign_bind (named _ (by simp)) before₆ fun converter₇ context₇ names₇ before₇ => ?_
  refine assign_bind (named _ (by simp)) before₇ fun converter₈ context₈ names₈ before₈ => ?_
  refine assign_bind (named _ (by simp)) before₈ fun converter₉ context₉ names₉ before₉ => ?_
  refine assign_bind (named _ (by simp)) before₉ fun converter' context' names' before' => ?_
  refine assign_bind (named _ (by simp)) before' fun converter'' context'' names'' before'' => ?_
  refine assign_bind (named _ (by simp)) before'' fun last contextLast namesLast beforeLast => ?_
  refine Ensures.modify fun _ => ⟨beforeLast.idle, rfl, fun member => ?_, beforeLast.objects⟩
  simp only [List.forall_mem_cons, List.not_mem_nil, false_implies, implies_true, and_true] at named
  obtain ⟨vao, vertices, coords, indices, output, frame, cursor⟩ := named
  dsimp only
  rw [namesLast, names'', names', names₉, names₈, names₇, names₆, names₅, names₃, names₁]
  cases member <;> simpa [Function.update_apply]

/-- A shader that is compiled. -/
theorem withCompiledShader_sets (before : Before (shaders + locals) converter context)
    (ensures : ∀ name converter context,
      Before (shaders + {(.shader, name)} + locals) converter context →
      Ensures context converter (rest name) (Sets (shaders + {(.shader, name)}) locals)) :
    Ensures context converter (withCompiledShader rest) (Sets shaders locals) := by
  refine withShader_sets before fun name context named created => ?_
  refine quiet_bind (Quiet.compileShader ?_) created (fun _ _ failed => failed)
    fun _ converter _ compiled => ensures name converter context compiled
  rw [created.objects]
  simp

/-- A program of two shaders, which live up to the end of the scope. -/
theorem withProgram_sets (before : Before (shaders + locals) converter context)
    (ensures : ∀ shaders name converter context, name ≠ noName →
      Before (shaders + (locals + {(.program, name)})) converter context →
      Ensures context converter (rest name) (Sets shaders (locals + {(.program, name)}))) :
    Ensures context converter (withProgram rest) (Sets shaders locals) := by
  refine withCompiledShader_sets before fun vertex converter context before => ?_
  refine withCompiledShader_sets before fun fragment converter context before => ?_
  refine withObject_sets before fun linked context named created => ?_
  refine quiet_bind (buildProgram_quiet ?_ ?_ ?_) created (fun _ _ failed => failed)
    fun _ converter _ built => ensures _ linked converter context named built
  all_goals
    rw [created.objects]
    simp

/-- `initialize` of a converter that is not initialized.  When it throws, the members own what is
left. -/
theorem initializeConverter_sets (before : Before (0 + 0) converter context) :
    Ensures context converter initializeConverter (Sets 0 0) := by
  refine Ensures.get_bind fun _ => ?_
  simp only [before.initialized, Bool.false_eq_true, if_false]
  refine withObject_sets before fun vao _ vaoNamed before => ?_
  refine withObject_sets before fun vertexBuffer _ verticesNamed before => ?_
  refine withObject_sets before fun textureCoordsBuffer _ coordsNamed before => ?_
  refine withObject_sets before fun indexBuffer _ indicesNamed before => ?_
  refine quiet_bind (describeVertices_quiet before.idle ?_ ?_ ?_ ?_) before
    (fun _ _ failed => failed) fun _ _ _ before => ?_
  iterate 4
    rw [before.objects]
    simp
  refine withObject_sets before fun outputTexture _ outputNamed before => ?_
  refine quiet_bind (describeTexture_quiet before.idle ?_) before
    (fun _ _ failed => failed) fun _ _ _ before => ?_
  · rw [before.objects]
    simp
  refine withProgram_sets before fun shaders frameProgram _ _ frameNamed before => ?_
  refine withProgram_sets before fun shaders mouseProgram _ _ mouseNamed before => ?_
  refine quiet_bind (locateUniforms_quiet before.idle ?_) before
    (fun _ _ failed => failed) fun _ _ _ before => ?_
  · rw [before.objects]
    simp
  have locals : 0 + {(Kind.vertexArray, vao)} + {(Kind.buffer, vertexBuffer)} +
      {(Kind.buffer, textureCoordsBuffer)} + {(Kind.buffer, indexBuffer)} +
      {(Kind.texture, outputTexture)} + {(Kind.program, frameProgram)} +
      {(Kind.program, mouseProgram)} = prepared vao vertexBuffer textureCoordsBuffer indexBuffer
        outputTexture frameProgram mouseProgram := by
    unfold prepared
    abel
  rw [locals] at before ⊢
  exact finish_sets (by simp [*]) before

/-! ### Operations -/

/-- Nothing is bound, and the objects are those of the members, all of which have names if the
converter is initialized. -/
structure Between (converter : ColorConverter) (context : Context) : Prop where
  idle : context.Idle
  objects : context.objects = objects converter.names Member.all
  named : converter.initialized = true → ∀ member, converter.names member ≠ noName

theorem initializeConverter_between (between : Between converter context) :
    Ensures context converter initializeConverter fun outcome converter context =>
      Between converter context ∧ (outcome = .ok () → converter.initialized = true) := by
  by_cases initialized : converter.initialized = true
  · refine Ensures.get_bind fun _ => ?_
    dsimp only
    rw [if_pos initialized]
    exact Ensures.pure ⟨between, fun _ => initialized⟩
  · have before : Before (0 + 0) converter context :=
      ⟨between.idle, Bool.eq_false_iff.mpr initialized, between.objects.trans (by simp)⟩
    refine (initializeConverter_sets before).mono ?_
    rintro (what | done) converter context sets
    · refine ⟨⟨sets.idle, ?_, by simp [sets.initialized]⟩, fun same => by cases same⟩
      simpa using sets.objects
    · obtain ⟨idle, initialized, named, objects⟩ := sets
      exact ⟨⟨idle, by simpa using objects, fun _ => named⟩, fun _ => initialized⟩

/-- The framebuffer and the vertex array are bound, and a texture and a program can be. -/
structure Drawing (converter : ColorConverter) (context : Context) : Prop where
  array : context.bound .vertexArray = converter.names .vao ∧ converter.names .vao ≠ noName
  elements : context.bound .elementArrayBuffer = converter.names .indexBuffer ∧
    converter.names .indexBuffer ≠ noName
  framebuffer : context.bound .drawFramebuffer = converter.names .fbo ∧
    converter.names .fbo ≠ noName
  texture : context.bound .textureExternal = noName
  program : context.bound .program = noName
  live : ∀ member, converter.names member ≠ noName →
    (member.kind, converter.names member) ∈ context.objects

theorem draw_quiet {texture linked : Member} {prepare : Step Unit}
    (drawing : Drawing converter context) (image : texture.kind = Target.textureExternal.kind)
    (program : linked.kind = Target.program.kind)
    (quiet : converter.names linked ≠ noName →
      Quiet kept ((context.bind .textureExternal (converter.names texture)).bind .program
        (converter.names linked)) prepare) :
    Quiet kept context (draw converter texture linked prepare) := by
  refine Quiet.withBinding drawing.texture (fun named => image ▸ drawing.live _ named) (by simp)
    (by simp) fun named => ?_
  refine Quiet.withBinding ?_ (fun named => program ▸ drawing.live _ named) (by simp) (by simp)
    fun named' => ?_
  · simp [Context.bind, drawing.program]
  refine (quiet named').bind fun _ => Quiet.call ?_
  simp [Context.Allows, Context.bind, Function.update_apply, drawing.array, drawing.elements,
    drawing.framebuffer, named, named']

theorem drawMouse_quiet (drawing : Drawing converter context) (mouse : MouseParameters) :
    Quiet kept context (drawMouse converter mouse) := by
  refine draw_quiet drawing rfl rfl fun named => ?_
  refine Quiet.bind (Quiet.call ?_) fun _ => Quiet.call ?_
  all_goals simp [Context.Allows, Context.bind, named]

/-- `convert` gives every binding back, however it is left. -/
theorem convert_ensures (between : Between converter context) (mouse : Option MouseParameters) :
    Ensures context converter (convert mouse) fun _ converter' context' =>
      kept converter' = kept converter ∧ context' = context := by
  have live (member : Member) (named : converter.names member ≠ noName) :
      (member.kind, converter.names member) ∈ context.objects := by
    rw [between.objects]
    exact mem_objects named
  refine Ensures.get_bind fun _ => ?_
  have quiet : Quiet kept context (convertWith converter mouse) := by
    refine Quiet.withBinding (between.idle _) (live .vao) (by simp) (fun _ => between.idle _)
      fun array => ?_
    refine Quiet.withBinding ?_ (live .fbo) (by simp) (by simp) fun framebuffer => ?_
    · simp [Context.bind, between.idle _]
    refine Quiet.withBinding ?_ (live .indexBuffer) ?_ (by simp) fun elements => ?_
    · simp [Context.bind, between.idle _]
    · simpa [Context.bind] using array
    have drawing : Drawing converter (((context.bind .vertexArray (converter.names .vao)).bind
        .drawFramebuffer (converter.names .fbo)).bind .elementArrayBuffer
          (converter.names .indexBuffer)) := by
      constructor
      all_goals
        first
        | exact live
        | simp [Context.bind, array, framebuffer, elements, between.idle _]
    refine Quiet.bind (Quiet.call ?_) fun _ => Quiet.plainCall.bind fun _ => ?_
    · simp [Context.Allows, drawing.framebuffer]
    refine Quiet.bind (Quiet.call ?_) fun _ => ?_
    · simp [Context.Allows, drawing.framebuffer]
    refine (draw_quiet drawing rfl rfl fun _ => Quiet.pure).bind fun _ => ?_
    cases mouse with
    | none => exact Quiet.pure
    | some mouse => exact drawMouse_quiet drawing mouse
  exact quiet converter

/-! ### The whole life -/

/-- The destructors of the members. -/
theorem destroyEach_ensures (members : List Member) (idle : context.Idle)
    (held : context.objects = objects converter.names members) :
    Ensures context converter (destroyEach members) fun outcome _ context =>
      outcome = .ok () ∧ context.Idle ∧ context.objects = 0 := by
  induction members generalizing context with
  | nil => exact Ensures.pure ⟨rfl, idle, held⟩
  | cons member members ih =>
      have split : context.objects = owned (member.kind, converter.names member) +
          objects converter.names members := held
      refine Ensures.get_bind fun _ => Ensures.bind (destroy_ensures idle (fun named => ?_) ?_)
      · rw [split, owned_of_ne named]
        exact Multiset.mem_add.mpr (.inl (Multiset.mem_singleton_self _))
      · refine ih idle ?_
        by_cases none : converter.names member = noName
        · rw [if_pos none, split, owned, if_pos none, Multiset.zero_add]
        · rw [if_neg none, split, owned, if_neg none, Multiset.singleton_add,
            Multiset.erase_cons_head]

theorem perform_between (between : Between converter context) (operation : Operation) :
    Ensures context converter (perform operation) fun _ converter context =>
      Between converter context := by
  cases operation with
  | initialize_ => exact (initializeConverter_between between).mono fun _ _ _ => And.left
  | convert mouse =>
      refine (convert_ensures between mouse).mono ?_
      rintro _ converter' _ ⟨same, rfl⟩
      obtain ⟨names, initialized⟩ := Prod.mk.inj same
      exact ⟨between.idle, names ▸ between.objects, by rw [names, initialized]; exact between.named⟩

theorem life_ensures (operations : List Operation) (between : Between converter context) :
    Ensures context converter (life operations) fun outcome _ context =>
      outcome = .ok () ∧ context.Idle ∧ context.objects = 0 := by
  induction operations generalizing converter context with
  | nil => exact destroyEach_ensures Member.all between.idle between.objects
  | cons operation operations ih =>
      refine Ensures.bind (Ensures.attempt ((perform_between between operation).mono ?_))
      exact fun _ _ _ between => ih between

/-- From the constructor to the destructor, whatever is called and whatever fails: objects are
created and destroyed while nothing is bound, each binding is that of a free target, each call finds
what it relies on, and in the end nothing is bound and no object is left. -/
theorem life_keeps (outputWidth outputHeight : UInt32) (operations : List Operation)
    (driver : Driver) :
    rules.Keeps ⟨fun _ => noName, 0⟩
      (life operations (driver, construct outputWidth outputHeight)) fun exit context =>
        (∀ fault, exit ≠ .faulted fault) → context.Idle ∧ context.objects = 0 := by
  have start : Between (construct outputWidth outputHeight) ⟨fun _ => noName, 0⟩ := by
    refine ⟨fun _ => rfl, ?_, by simp [construct]⟩
    simp [objects, Member.all, owned, construct]
  refine Machine.Keeps.mono (life_ensures operations start driver) ?_
  rintro (⟨done, state⟩ | ⟨what, state⟩ | fault) context left
  · exact fun _ => left.2
  · exact fun _ => left.2
  · exact fun goesOn => absurd rfl (goesOn fault)

end ColorConverter
end ShadowCast
