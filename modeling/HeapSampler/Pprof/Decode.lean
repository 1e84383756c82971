import HeapSampler.Pprof.Parse
import HeapSampler.Gzip.Member

/-!
# Profiles from files

A profile file is a profile message, as it is or as a gzip member; its first two bytes tell.
-/

namespace HeapSampler.Pprof

inductive DecodeError where
  | badMember
  | badMessage
  deriving DecidableEq, Repr

def DecodeError.message : DecodeError → String
  | badMember => "failed to gunzip profile"
  | badMessage => "failed to decode pprof"

def parseProfile (bytes : List UInt8) : Except DecodeError Profile :=
  match parse? Profile bytes with
  | some profile => .ok profile
  | none => .error .badMessage

def decode (bytes : List UInt8) : Except DecodeError Profile :=
  if bytes.take 2 = Gzip.magic then
    match Gzip.gunzip? bytes with
    | some content => parseProfile content
    | none => .error .badMember
  else parseProfile bytes

end HeapSampler.Pprof
