import InfraOperator.Object.Shape.Basic

/-!
# Shapes of selectors

How objects are picked by their labels, and where the pods of a job may run: on which nodes, near
which other pods, spread how, and in spite of which taints.
-/

set_option autoImplicit false

namespace InfraOperator.Shape

def requirement : Shape := .record [("key", .text), ("operator", .text)] [("values", texts)]

def labelSelector : Shape :=
  loose [("matchExpressions", .list requirement), ("matchLabels", labels)]

def nodeSelectorTerm : Shape :=
  loose [("matchExpressions", .list requirement), ("matchFields", .list requirement)]

def nodeAffinity : Shape :=
  loose [
    ("preferredDuringSchedulingIgnoredDuringExecution",
      .list (.record [("preference", nodeSelectorTerm), ("weight", int32)] [])),
    ("requiredDuringSchedulingIgnoredDuringExecution",
      .record [("nodeSelectorTerms", .list nodeSelectorTerm)] [])]

def podAffinityTerm : Shape :=
  .record [("topologyKey", .text)]
    [("labelSelector", labelSelector), ("matchLabelKeys", texts), ("mismatchLabelKeys", texts),
      ("namespaceSelector", labelSelector), ("namespaces", texts)]

def podAffinity : Shape :=
  loose [
    ("preferredDuringSchedulingIgnoredDuringExecution",
      .list (.record [("podAffinityTerm", podAffinityTerm), ("weight", int32)] [])),
    ("requiredDuringSchedulingIgnoredDuringExecution", .list podAffinityTerm)]

def affinity : Shape :=
  loose [("nodeAffinity", nodeAffinity), ("podAffinity", podAffinity),
    ("podAntiAffinity", podAffinity)]

def toleration : Shape :=
  loose [("effect", .text), ("key", .text), ("operator", .text), ("tolerationSeconds", int64),
    ("value", .text)]

def topologySpread : Shape :=
  .record [("maxSkew", int32), ("topologyKey", .text), ("whenUnsatisfiable", .text)]
    [("labelSelector", labelSelector), ("matchLabelKeys", texts), ("minDomains", int32),
      ("nodeAffinityPolicy", .text), ("nodeTaintsPolicy", .text)]

end InfraOperator.Shape
