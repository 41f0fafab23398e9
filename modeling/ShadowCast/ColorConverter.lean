import ShadowCast.Gl

/-!
# The color converter

`ColorConverter` draws the captured frame, and the cursor over it, into a texture of its own.  Its
objects are local to `initialize` at first and become members in the end, some of them while
`initialize` may still throw.
-/

namespace ShadowCast
namespace ColorConverter

open Gl

/-- The members that own an object. -/
inductive Member where
  | fbo
  | inputTexture
  | mouseTexture
  | outputTexture
  | vao
  | vertexBuffer
  | textureCoordsBuffer
  | indexBuffer
  | program
  | mouseProgram
  deriving DecidableEq, Repr

/-- The type of a member. -/
def Member.kind : Member → Kind
  | fbo => .framebuffer
  | inputTexture | mouseTexture | outputTexture => .texture
  | vao => .vertexArray
  | vertexBuffer | textureCoordsBuffer | indexBuffer => .buffer
  | program | mouseProgram => .program

/-- The order in which the members are destroyed. -/
def Member.all : List Member :=
  [.mouseProgram, .program, .indexBuffer, .textureCoordsBuffer, .vertexBuffer, .vao,
    .outputTexture, .mouseTexture, .inputTexture, .fbo]

end ColorConverter

/-- `ColorConverter`. -/
structure ColorConverter where
  names : ColorConverter.Member → Nat
  outputWidth : UInt32
  outputHeight : UInt32
  mouseDimensionsUniform : Int
  mousePositionUniform : Int
  initialized : Bool

/-- `MouseParameters`. -/
structure MouseParameters where
  width : UInt32
  height : UInt32
  x : Int32
  y : Int32
  deriving DecidableEq, Repr

namespace ColorConverter

open Gl

/-- The constructor. -/
def construct (outputWidth outputHeight : UInt32) : ColorConverter :=
  ⟨fun _ => noName, outputWidth, outputHeight, 0, 0, false⟩

/-- Statements of a converter. -/
abbrev Step : Type → Type := Run ColorConverter

/-- The member becomes the owner of an object, and the object it has owned is destroyed. -/
def assign (member : Member) (name : Nat) : Step Unit := do
  let (_, converter) ← Stateful.get
  Stateful.modify fun (driver, converter) =>
    (driver, { converter with names := Function.update converter.names member name })
  destroy (member.kind, converter.names member)

/-- The contents of a buffer that becomes an attribute of the vertex array. -/
def describeAttribute (vao buffer index size : Nat) : Step Unit :=
  withBinding .arrayBuffer buffer do
    bufferData .arrayBuffer buffer
    vertexAttribPointer buffer index size
    enableVertexArrayAttrib vao index

/-- The rectangle, in the scope of the vertex array. -/
def describeVertices (vao vertexBuffer textureCoordsBuffer indexBuffer : Nat) : Step Unit :=
  withBinding .vertexArray vao do
    describeAttribute vao vertexBuffer 0 3
    describeAttribute vao textureCoordsBuffer 1 2
    withBinding .elementArrayBuffer indexBuffer do
      bufferData .elementArrayBuffer indexBuffer

/-- The texture that is drawn to. -/
def describeTexture (texture : Nat) (width height : UInt32) : Step Unit :=
  withBinding .texture2d texture do
    textureImage2d texture width height
    textureParameter texture
    textureParameter texture

/-- A program of two shaders. -/
def buildProgram (program vertexShader fragmentShader : Nat) : Step Unit := do
  attachShader program vertexShader
  attachShader program fragmentShader
  linkProgram program 0
  validateProgram program

/-- The uniforms of the cursor's program. -/
def locateUniforms (mouseProgram : Nat) (width height : UInt32) : Step Unit :=
  withBinding .program mouseProgram do
    let location ← getUniformLocation mouseProgram
    uniform mouseProgram location width.toNat height.toNat
    let dimensions ← getUniformLocation mouseProgram
    Stateful.modify fun (driver, converter) =>
      (driver, { converter with mouseDimensionsUniform := dimensions })
    let position ← getUniformLocation mouseProgram
    Stateful.modify fun (driver, converter) =>
      (driver, { converter with mousePositionUniform := position })

/-- The framebuffer, with its texture. -/
def describeFramebuffer (fbo outputTexture : Nat) : Step Unit :=
  withBinding .drawFramebuffer fbo do
    call "glEnable" [] [] []
    call "glBlendFunc" [] [] []
    framebufferTexture fbo outputTexture
    drawBuffers fbo
    checkFramebufferStatus fbo

/-- The last part of `initialize`, from the framebuffer on. -/
def finish (vao vertexBuffer textureCoordsBuffer indexBuffer outputTexture program
    mouseProgram : Nat) : Step Unit := do
  let fbo ← withObject .framebuffer fun fbo => do
    describeFramebuffer fbo outputTexture
    pure fbo
  assign .fbo fbo
  let inputTexture ← create .texture
  assign .inputTexture inputTexture
  let mouseTexture ← create .texture
  assign .mouseTexture mouseTexture
  -- No exception is thrown from here on.
  assign .outputTexture outputTexture
  assign .vao vao
  assign .vertexBuffer vertexBuffer
  assign .textureCoordsBuffer textureCoordsBuffer
  assign .indexBuffer indexBuffer
  assign .program program
  assign .mouseProgram mouseProgram
  Stateful.modify fun (driver, converter) => (driver, { converter with initialized := true })

/-- A shader that is compiled, up to the end of its scope. -/
def withCompiledShader (rest : Nat → Step Unit) : Step Unit :=
  withShader fun shader => do
    compileShader shader
    rest shader

/-- A program of two shaders that are compiled, up to the end of the scope. -/
def withProgram (rest : Nat → Step Unit) : Step Unit :=
  withCompiledShader fun vertexShader =>
    withCompiledShader fun fragmentShader =>
      withObject .program fun linked => do
        buildProgram linked vertexShader fragmentShader
        rest linked

/-- `initialize`. -/
def initializeConverter : Step Unit := do
  let (_, converter) ← Stateful.get
  if converter.initialized then pure ()
  else
    withObject .vertexArray fun vao =>
      withObject .buffer fun vertexBuffer =>
        withObject .buffer fun textureCoordsBuffer =>
          withObject .buffer fun indexBuffer => do
            describeVertices vao vertexBuffer textureCoordsBuffer indexBuffer
            withObject .texture fun outputTexture => do
              describeTexture outputTexture converter.outputWidth converter.outputHeight
              withProgram fun frameProgram =>
                withProgram fun mouseProgram => do
                  locateUniforms mouseProgram converter.outputWidth converter.outputHeight
                  finish vao vertexBuffer textureCoordsBuffer indexBuffer outputTexture
                    frameProgram mouseProgram

/-- Draw a texture with a program. -/
def draw (converter : ColorConverter) (texture linked : Member) (prepare : Step Unit) :
    Step Unit :=
  withBinding .textureExternal (converter.names texture) do
    withBinding .program (converter.names linked) do
      prepare
      drawElements (converter.names .vao) (converter.names .indexBuffer) (converter.names linked)
        (converter.names .fbo) (converter.names texture)

/-- The cursor, whose uniforms are set before. -/
def drawMouse (converter : ColorConverter) (mouse : MouseParameters) : Step Unit :=
  draw converter .mouseTexture .mouseProgram do
    uniform (converter.names .mouseProgram) converter.mouseDimensionsUniform mouse.width.toNat
      mouse.height.toNat
    uniform (converter.names .mouseProgram) converter.mousePositionUniform mouse.x.toInt
      mouse.y.toInt

/-- The body of `convert`. -/
def convertWith (converter : ColorConverter) (mouseParams : Option MouseParameters) : Step Unit :=
  withBinding .vertexArray (converter.names .vao) do
    withBinding .drawFramebuffer (converter.names .fbo) do
      withBinding .elementArrayBuffer (converter.names .indexBuffer) do
        viewport (converter.names .fbo) converter.outputWidth converter.outputHeight
        plainCall "glClearColor"
        clear (converter.names .fbo)
        draw converter .inputTexture .program (pure ())
        match mouseParams with
        | none => pure ()
        | some mouse => drawMouse converter mouse

/-- `convert`. -/
def convert (mouseParams : Option MouseParameters) : Step Unit := do
  let (_, converter) ← Stateful.get
  convertWith converter mouseParams

/-- The destructors of members. -/
def destroyEach : List Member → Step Unit
  | [] => pure ()
  | member :: members => do
      let (_, converter) ← Stateful.get
      destroy (member.kind, converter.names member)
      destroyEach members

/-- What is done with a converter. -/
inductive Operation where
  | initialize_
  | convert (mouseParams : Option MouseParameters)
  deriving DecidableEq, Repr

/-- An operation. -/
def perform : Operation → Step Unit
  | .initialize_ => initializeConverter
  | .convert mouseParams => convert mouseParams

/-- A converter's life: operations, whose exceptions are handled by their callers, and the
destructor. -/
def life : List Operation → Step Unit
  | [] => destroyEach Member.all
  | operation :: operations => do
      let _ ← Stateful.attempt (perform operation)
      life operations

end ColorConverter
end ShadowCast
