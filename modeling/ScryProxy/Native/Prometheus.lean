import ScryProxy.ForStd.Str

/-!
# Prometheus export

Model of `escape_label` of `observability/prometheus.rs`, through which the names of the backends
go into the label values of the exported metrics.
-/

namespace ScryProxy

/-- `escape_label`. -/
def escapeLabel (value : Str) : Str :=
  ((value.replaceChar '\\' "\\\\".toList).replaceChar '"' "\\\"".toList).replaceChar '\n' "\\n".toList

end ScryProxy
