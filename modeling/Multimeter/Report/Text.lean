import Multimeter.Json.Printer
import Multimeter.Json.Reader
import Multimeter.Report.Json

/-!
# Reports as text

* `Report.compact`, `Report.pretty`: the two written forms.
* `Report.read?`: the report that a text holds.
-/

namespace Multimeter.Report

/-- The report on one line, without blanks. -/
def compact (r : Report) : String := r.toJson.compact

/-- The report with one member a line. -/
def pretty (r : Report) : String := r.toJson.pretty

/-- The report that a text holds, if it holds one. -/
def read? (s : String) : Option Report := Json.read? s >>= ofJson?

end Multimeter.Report
