import HostBridge.Json.Library
import HostBridge.Json.Printer
import HostBridge.Json.Reader

/-!
The exact library: it rounds every numeral to the nearest double and writes a double in the fewest
digits, so that it keeps all of them. Where no other library is named, this one reads and writes.
-/

namespace HostBridge.Json

instance (priority := low) exact : Library where
  read text :=
    match parse? text with
    | some json => .ok json
    | none => .error "the text is not a JSON document"
  write := print

end HostBridge.Json
