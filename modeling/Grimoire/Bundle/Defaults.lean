import Grimoire.Json.Printer

/-!
# Defaults of generated programs

A generated program reads its limits from environment variables. The program and its guide take names
and defaults from one place, so that what is documented is what holds.
-/

namespace Grimoire.Bundle

/-- The image that generated images start from. -/
def baseImage : Text := "node:20-alpine"
/-- The file that holds the generated program. -/
def programFile : Text := "index.js"
/-- The file that holds the manifest. -/
def manifestFile : Text := "package.json"
/-- The file that says how the image is built. -/
def imageFile : Text := "Dockerfile"
/-- The file that holds the guide. -/
def guideFile : Text := "README.md"
/-- The version of generated packages. -/
def packageVersion : Text := "1.0.0"

/-- A setting that an environment variable may change. -/
structure Setting where
  name : Text
  value : Nat

/-- The variable that lists the hosts that may be asked. -/
def hostsVariable : Text := "ALLOWED_HOSTS"
/-- The hosts that may be asked if nothing else is said. -/
def defaultHosts : Text := "*"
/-- The greatest size of an answer in bytes. -/
def responseSize : Setting := ⟨"MAX_RESPONSE_SIZE", 10 * 1024 * 1024⟩
/-- The time for a request in milliseconds. -/
def requestTime : Setting := ⟨"HTTP_TIMEOUT_MS", 15000⟩
/-- The time for a script in milliseconds. -/
def scriptTime : Setting := ⟨"SCRIPT_TIMEOUT_MS", 5000⟩

/-- Numbers in prose are positional from 0.0001 to below a million, with at most six digits. -/
def proseFormat : NumberFormat := ⟨-4, 6, false⟩

/-- A floating-point number in prose. -/
def proseNumber : Binary64 → Text
  | .nan => "nan"
  | .infinity negative => if negative then "-inf" else "inf"
  | .finite negative significand exponent _ =>
    (if negative then "-" else "" : Text) ++
      if significand = 0 then ("0" : Text)
      else proseFormat.write (Binary64.roundDigits 6 significand exponent)

/-- A number of milliseconds in seconds. -/
def secondsText (milliseconds : Int) : Text :=
  proseNumber (.ofRatio (decide (milliseconds < 0)) milliseconds.natAbs 1000) ++ " seconds"

/-- A number of bytes, in mebibytes if it is a multiple of them. -/
def sizeText (bytes : Int) : Text :=
  if Int.fmod bytes (1024 * 1024) = 0 then Text.ofInt (Int.fdiv bytes (1024 * 1024)) ++ " MiB"
  else Text.ofInt bytes ++ " bytes"

end Grimoire.Bundle
