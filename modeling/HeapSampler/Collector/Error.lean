import HeapSampler.Config.Settings
import HeapSampler.Export.Options
import HeapSampler.Text.Hex

/-!
# What can go wrong with a collector
-/

namespace HeapSampler

inductive SymbolizationError where
  | unresolvedFrame (token : UInt64)
  | other (text : String)
  deriving DecidableEq, Repr

def SymbolizationError.name : SymbolizationError → String
  | unresolvedFrame _ => "UnresolvedFrame"
  | other _ => "Other"

def SymbolizationError.message : SymbolizationError → String
  | unresolvedFrame token =>
      "frame " ++ Text.hexadecimal token.toNat ++ " could not be resolved"
  | other text => text

inductive FlushError where
  /-- Another flush is under way. -/
  | alreadyFlushing
  | encodingFailure (cause : EncodeError)
  deriving DecidableEq, Repr

/-- The cause in a word, and behind it the cause of the cause if there is one. -/
def FlushError.name : FlushError → String
  | alreadyFlushing => "AlreadyFlushing"
  | encodingFailure cause => "EncodingFailure/" ++ cause.name

def FlushError.message : FlushError → String
  | alreadyFlushing => "another flush is already in progress"
  | encodingFailure cause => "failed to encode the profile: " ++ cause.message

inductive CollectorError where
  | configuration (cause : ConfigError)
  | alreadyRunning
  | notRunning
  | flush (cause : FlushError)
  deriving Repr

def CollectorError.name : CollectorError → String
  | configuration cause => "Configuration/" ++ cause.name
  | alreadyRunning => "AlreadyRunning"
  | notRunning => "NotRunning"
  | flush cause => "Flush/" ++ cause.name

def CollectorError.message : CollectorError → String
  | configuration cause => "invalid configuration: " ++ cause.message
  | alreadyRunning => "the collector is already running"
  | notRunning => "the collector is not running"
  | flush cause => cause.message

end HeapSampler
