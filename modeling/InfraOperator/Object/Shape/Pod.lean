import InfraOperator.Object.Shape.Volume

/-!
# Shapes of pods

What a pod has beside its containers and volumes: its name on the network, its place in the
schedule, and its share of the node.
-/

set_option autoImplicit false

namespace InfraOperator.Shape

def dnsConfig : Shape :=
  loose [("nameservers", texts), ("options", .list (loose [("name", .text), ("value", .text)])),
    ("searches", texts)]

def hostAlias : Shape := .record [("ip", .text)] [("hostnames", texts)]

def resourceClaim : Shape :=
  .record [("name", .text)] [("resourceClaimName", .text), ("resourceClaimTemplateName", .text)]

def podFields : List (String × Shape) :=
  [("activeDeadlineSeconds", int64), ("affinity", affinity),
    ("automountServiceAccountToken", .bool), ("dnsConfig", dnsConfig), ("dnsPolicy", .text),
    ("enableServiceLinks", .bool), ("ephemeralContainers", .list ephemeralContainer),
    ("hostAliases", .list hostAlias), ("hostIPC", .bool), ("hostNetwork", .bool),
    ("hostPID", .bool), ("hostUsers", .bool), ("hostname", .text),
    ("imagePullSecrets", .list localReference), ("nodeName", .text), ("nodeSelector", labels),
    ("os", localReference), ("overhead", labels), ("preemptionPolicy", .text),
    ("priority", int32), ("priorityClassName", .text),
    ("readinessGates", .list (.record [("conditionType", .text)] [])),
    ("resourceClaims", .list resourceClaim), ("resources", resources),
    ("runtimeClassName", .text), ("schedulerName", .text),
    ("schedulingGates", .list localReference), ("securityContext", podSecurity),
    ("serviceAccount", .text), ("setHostnameAsFQDN", .bool), ("shareProcessNamespace", .bool),
    ("subdomain", .text), ("terminationGracePeriodSeconds", int64),
    ("tolerations", .list toleration), ("topologySpreadConstraints", .list topologySpread)]

end InfraOperator.Shape
