import LintGate.File.Tree
import LintGate.Json.Value
import LintGate.Text.Digits

/-!
Listings of files: a JSON object from paths to contents. A string is a text, an object holds bytes
in hexadecimal digits, and null is a directory. A file that names an interpreter can be run.
-/

namespace LintGate.FileTree

open Json

/-- The bytes that pairs of hexadecimal digits stand for. -/
def hexBytes : List Char → List UInt8
  | high :: low :: rest =>
    UInt8.ofNat (16 * (Text.hexValue? high).getD 0 + (Text.hexValue? low).getD 0) :: hexBytes rest
  | _ => []

/-- The content that a listing gives to a file. -/
def listedContent (v : Value) : List UInt8 :=
  match v with
  | .string text => Text.Utf8.encode text
  | v =>
    match v.get? "hex" with
    | some (.string digits) => hexBytes digits.toList
    | _ => []

/-- The file or directory that a listing describes. -/
def ofListed (v : Value) : FileTree :=
  match v with
  | .null => empty
  | v =>
    let content := listedContent v
    .file content (Text.Utf8.encode "#!" |>.isPrefixOf content)

/-- The files of a listing, below the directory `base`. -/
def ofListing (base : Path) (listing : Value) : FileTree :=
  let start := empty.put (namesOf base) empty
  match listing with
  | .object members =>
    members.foldl
      (fun t m => t.put (namesOf base ++ namesOf (Path.ofString m.1)) (ofListed m.2)) start
  | _ => start

end LintGate.FileTree
