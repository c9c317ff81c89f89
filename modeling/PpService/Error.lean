/-
  THE ERRORS of `src/error.rs` and the gRPC status each becomes.

  Of the two foreign errors the service carries along, only what it prints is kept: the
  `Display` text of a `std::io::Error`, the `Debug` text of a `TooSuspicious`.
-/

namespace PpService

/-- `std::io::Error`, by its `Display` text. -/
structure IoError where
  display : String
  deriving DecidableEq

/-- `rosu_pp::model::beatmap::TooSuspicious`, by its `Debug` text. -/
structure TooSuspicious where
  debug : String
  deriving DecidableEq

inductive Error where
  | missingBeatmap
  | parse (err : IoError)
  | conversion
  | suspicious (why : TooSuspicious)
  | batchTooLarge (size max : Nat)
  | noStrainData
  | graphRendering (message : String)
  deriving DecidableEq

/-- The `#[error]` texts. -/
def Error.toString : Error → String
  | .missingBeatmap => "beatmap source required"
  | .parse err => "parse error: " ++ err.display
  | .conversion => "conversion not supported"
  | .suspicious why => "suspicious beatmap: " ++ why.debug
  | .batchTooLarge size max =>
    "batch too large: " ++ size.repr ++ " requests, max " ++ max.repr
  | .noStrainData => "no strain data available"
  | .graphRendering message => "graph rendering failed: " ++ message

/-- The gRPC status codes in use. -/
inductive Code where
  | invalidArgument | failedPrecondition | unimplemented | internal
  deriving DecidableEq

/-- `tonic::Status`. -/
structure Status where
  code : Code
  message : String
  deriving DecidableEq

/-- The code `From<Error> for Status` chooses. -/
def Error.code : Error → Code
  | .missingBeatmap | .batchTooLarge _ _ => .invalidArgument
  | .parse _ | .suspicious _ => .failedPrecondition
  | .conversion => .unimplemented
  | .noStrainData => .failedPrecondition
  | .graphRendering _ => .internal

/-- `From<Error> for Status`. -/
def Error.toStatus (err : Error) : Status := ⟨err.code, err.toString⟩

end PpService
