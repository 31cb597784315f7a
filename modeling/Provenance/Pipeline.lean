import Provenance.Host
import Provenance.Mapping.Composition
import Provenance.SyntaxTree

/-!
# The pipeline

A typed file goes through both stages, any other through the second alone. The result of a typed
file has its locations moved from intermediate code to the source: those of the tree or those of
the map, as the host reads them. `transform` is the result; `calls` tells what each stage was given.
-/

namespace Provenance

/-- Both stages, with what the first is told and where locations are wanted. -/
structure Pipeline where
  compiler : Compiler
  transformer : Transformer
  options : Config.CompilerOptions
  mode : IntegrationMode

/-- Why a file was not transformed. -/
inductive PipelineError where
  /-- The first error that the compiler reported. -/
  | compile (diagnostic : Diagnostic)
  /-- The compiler's map cannot be read. -/
  | map (cause : MapFormatError)
  | transform (message : String)

def PipelineError.message : PipelineError → String
  | .compile diagnostic => diagnostic.rendered
  | .map cause => "invalid stage-1 source map: " ++ (MapError.format cause).message
  | .transform message => message

/-- What a stage was given. -/
inductive StageCall where
  | compile (file : SourceFile) (options : Config.CompilerOptions)
  | transform (request : TransformRequest)

/-- Whether a file goes through the first stage, by the end of its name. -/
def isTyped (fileName : String) : Bool := fileName.endsWith ".ts" || fileName.endsWith ".tsx"

namespace Pipeline

/-- The file of a request. -/
def fileOf (request : TransformRequest) : SourceFile := ⟨request.fileName, request.source⟩

/-- The first stage: where intermediate code came from, and what to ask of the second stage. -/
def compileStage (p : Pipeline) (request : TransformRequest) :
    Except PipelineError (OriginIndex × TransformRequest) :=
  let compiled := p.compiler.compile (fileOf request) p.options
  match Diagnostic.firstError? compiled.diagnostics with
  | some d => .error (.compile d)
  | none =>
    match SourceMap.ofText compiled.mapText with
    | .error e => .error (.map e)
    | .ok map => .ok (.ofSourceMap map, { request with source := compiled.code })

/-- The second stage. -/
def transformStage (p : Pipeline) (request : TransformRequest) :
    Except PipelineError TransformOutput :=
  (p.transformer.transform request).mapError .transform

/-- The output of the second stage with its locations moved to the source. -/
def relocate (p : Pipeline) (index : OriginIndex) (source : SourceFile) (output : TransformOutput) :
    TransformOutput :=
  match p.mode with
  | .treeLocations => { output with tree := output.tree.map (SyntaxTree.patch index) }
  | .standaloneMap => { output with map := output.map.map (PositionMap.through index source) }

/-- Transforms a file. -/
def transform (p : Pipeline) (request : TransformRequest) : Except PipelineError TransformOutput :=
  if isTyped request.fileName then
    match p.compileStage request with
    | .error e => .error e
    | .ok (index, intermediate) =>
      (p.transformStage intermediate).map (p.relocate index (fileOf request))
  else p.transformStage request

/-- What the stages are given when a file is transformed, in order. -/
def calls (p : Pipeline) (request : TransformRequest) : List StageCall :=
  if isTyped request.fileName then
    .compile (fileOf request) p.options ::
      match p.compileStage request with
      | .error _ => []
      | .ok (_, intermediate) => [.transform intermediate]
  else [.transform request]

end Pipeline

end Provenance
