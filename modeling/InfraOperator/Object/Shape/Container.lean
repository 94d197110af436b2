import InfraOperator.Object.Shape.Basic

/-!
# Shapes of containers

What a container has beside its command, its environment and its mounts: ports, resources, probes,
hooks of its life cycle and what it may do on its host.
-/

set_option autoImplicit false

namespace InfraOperator.Shape

def localReference : Shape := .record [("name", .text)] []

def lenientReference : Shape := .record [("name", .text)] [("optional", .bool)]

def keyReference : Shape := .record [("key", .text), ("name", .text)] [("optional", .bool)]

def fieldReference : Shape := .record [("fieldPath", .text)] [("apiVersion", .text)]

def resourceReference : Shape :=
  .record [("resource", .text)] [("containerName", .text), ("divisor", .text)]

def envSource : Shape :=
  loose [("configMapKeyRef", keyReference), ("fieldRef", fieldReference),
    ("resourceFieldRef", resourceReference), ("secretKeyRef", keyReference)]

def envVarFields : List (String × Shape) := [("valueFrom", envSource)]

def envFromFields : List (String × Shape) := [("configMapRef", lenientReference)]

def volumeMountFields : List (String × Shape) :=
  [("mountPropagation", .text), ("recursiveReadOnly", .text), ("subPathExpr", .text)]

def resources : Shape :=
  loose [("claims", .list (.record [("name", .text)] [("request", .text)])), ("limits", labels),
    ("requests", labels)]

def execAction : Shape := loose [("command", texts)]

def httpGet : Shape :=
  .record [("port", .port)]
    [("host", .text), ("httpHeaders", .list (.record [("name", .text), ("value", .text)] [])),
      ("path", .text), ("scheme", .text)]

def tcpSocket : Shape := .record [("port", .port)] [("host", .text)]

def probe : Shape :=
  loose [("exec", execAction), ("failureThreshold", int32),
    ("grpc", .record [("port", int32)] [("service", .text)]), ("httpGet", httpGet),
    ("initialDelaySeconds", int32), ("periodSeconds", int32), ("successThreshold", int32),
    ("tcpSocket", tcpSocket), ("terminationGracePeriodSeconds", int64), ("timeoutSeconds", int32)]

def hook : Shape :=
  loose [("exec", execAction), ("httpGet", httpGet), ("sleep", .record [("seconds", int64)] []),
    ("tcpSocket", tcpSocket)]

def lifecycle : Shape := loose [("postStart", hook), ("preStop", hook)]

def containerPort : Shape :=
  .record [("containerPort", int32)]
    [("hostIP", .text), ("hostPort", int32), ("name", .text), ("protocol", .text)]

def profile : Shape := .record [("type", .text)] [("localhostProfile", .text)]

def seLinuxOptions : Shape :=
  loose [("level", .text), ("role", .text), ("type", .text), ("user", .text)]

def windowsOptions : Shape :=
  loose [("gmsaCredentialSpec", .text), ("gmsaCredentialSpecName", .text), ("hostProcess", .bool),
    ("runAsUserName", .text)]

def containerSecurity : Shape :=
  loose [("allowPrivilegeEscalation", .bool), ("appArmorProfile", profile),
    ("capabilities", loose [("add", texts), ("drop", texts)]), ("privileged", .bool),
    ("procMount", .text), ("readOnlyRootFilesystem", .bool), ("runAsGroup", int64),
    ("runAsNonRoot", .bool), ("runAsUser", int64), ("seLinuxOptions", seLinuxOptions),
    ("seccompProfile", profile), ("windowsOptions", windowsOptions)]

def podSecurity : Shape :=
  loose [("appArmorProfile", profile), ("fsGroup", int64), ("fsGroupChangePolicy", .text),
    ("runAsGroup", int64), ("runAsNonRoot", .bool), ("runAsUser", int64),
    ("seLinuxChangePolicy", .text), ("seLinuxOptions", seLinuxOptions), ("seccompProfile", profile),
    ("supplementalGroups", .list int64), ("supplementalGroupsPolicy", .text),
    ("sysctls", .list (.record [("name", .text), ("value", .text)] [])),
    ("windowsOptions", windowsOptions)]

def resizePolicy : Shape := .record [("resourceName", .text), ("restartPolicy", .text)] []

def volumeDevice : Shape := .record [("devicePath", .text), ("name", .text)] []

def containerFields : List (String × Shape) :=
  [("lifecycle", lifecycle), ("livenessProbe", probe), ("ports", .list containerPort),
    ("readinessProbe", probe), ("resizePolicy", .list resizePolicy), ("resources", resources),
    ("restartPolicy", .text), ("securityContext", containerSecurity), ("startupProbe", probe),
    ("stdin", .bool), ("stdinOnce", .bool), ("terminationMessagePath", .text),
    ("terminationMessagePolicy", .text), ("tty", .bool), ("volumeDevices", .list volumeDevice)]

/-- A container that joins a pod already running; units have none, so it is a shape as a whole. -/
def ephemeralContainer : Shape :=
  .record [("name", .text)] <|
    [("args", texts), ("command", texts),
      ("env", .list (.record [("name", .text)] ([("value", .text)] ++ envVarFields))),
      ("envFrom", .list (loose <|
        [("prefix", .text), ("secretRef", lenientReference)] ++ envFromFields)),
      ("image", .text), ("imagePullPolicy", .text), ("targetContainerName", .text),
      ("volumeMounts", .list (.record [("mountPath", .text), ("name", .text)] <|
        [("readOnly", .bool), ("subPath", .text)] ++ volumeMountFields)),
      ("workingDir", .text)] ++
    containerFields

end InfraOperator.Shape
