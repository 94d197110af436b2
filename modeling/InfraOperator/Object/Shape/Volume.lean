import InfraOperator.Object.Shape.Container
import InfraOperator.Object.Shape.Selector

/-!
# Shapes of volumes

Where the files of a volume come from, apart from secrets: the pod and its node, other objects of
the cluster, claims, and the disks and shares of the storage systems that the API server knows.
-/

set_option autoImplicit false

namespace InfraOperator.Shape

def keyFile : Shape := .record [("key", .text), ("path", .text)] [("mode", int32)]

def secretVolumeFields : List (String × Shape) := [("items", .list keyFile)]

def downwardFile : Shape :=
  .record [("path", .text)]
    [("fieldRef", fieldReference), ("mode", int32), ("resourceFieldRef", resourceReference)]

def configMapVolume : Shape :=
  .record [("name", .text)]
    [("defaultMode", int32), ("items", .list keyFile), ("optional", .bool)]

def projectedEntries : Shape :=
  .record [("name", .text)] [("items", .list keyFile), ("optional", .bool)]

def projection : Shape :=
  loose [
    ("clusterTrustBundle", .record [("path", .text)]
      [("labelSelector", labelSelector), ("name", .text), ("optional", .bool),
        ("signerName", .text)]),
    ("configMap", projectedEntries),
    ("downwardAPI", loose [("items", .list downwardFile)]),
    ("secret", projectedEntries),
    ("serviceAccountToken", .record [("path", .text)]
      [("audience", .text), ("expirationSeconds", int64)])]

def claimSpec : Shape :=
  loose [
    ("accessModes", texts),
    ("dataSource", .record [("kind", .text), ("name", .text)] [("apiGroup", .text)]),
    ("dataSourceRef", .record [("kind", .text), ("name", .text)]
      [("apiGroup", .text), ("namespace", .text)]),
    ("resources", loose [("limits", labels), ("requests", labels)]),
    ("selector", labelSelector), ("storageClassName", .text),
    ("volumeAttributesClassName", .text), ("volumeMode", .text), ("volumeName", .text)]

def claimTemplate : Shape := .record [("spec", claimSpec)] [("metadata", .metadata)]

def clusterVolumes : List (String × Shape) :=
  [("configMap", configMapVolume),
    ("csi", .record [("driver", .text)]
      [("fsType", .text), ("nodePublishSecretRef", localReference), ("readOnly", .bool),
        ("volumeAttributes", labels)]),
    ("downwardAPI", loose [("defaultMode", int32), ("items", .list downwardFile)]),
    ("emptyDir", loose [("medium", .text), ("sizeLimit", .text)]),
    ("ephemeral", loose [("volumeClaimTemplate", claimTemplate)]),
    ("gitRepo", .record [("repository", .text)] [("directory", .text), ("revision", .text)]),
    ("hostPath", .record [("path", .text)] [("type", .text)]),
    ("image", loose [("pullPolicy", .text), ("reference", .text)]),
    ("persistentVolumeClaim", .record [("claimName", .text)] [("readOnly", .bool)]),
    ("projected", loose [("defaultMode", int32), ("sources", .list projection)])]

def cloudVolumes : List (String × Shape) :=
  [("awsElasticBlockStore", .record [("volumeID", .text)]
      [("fsType", .text), ("partition", int32), ("readOnly", .bool)]),
    ("azureDisk", .record [("diskName", .text), ("diskURI", .text)]
      [("cachingMode", .text), ("fsType", .text), ("kind", .text), ("readOnly", .bool)]),
    ("azureFile", .record [("secretName", .text), ("shareName", .text)] [("readOnly", .bool)]),
    ("cinder", .record [("volumeID", .text)]
      [("fsType", .text), ("readOnly", .bool), ("secretRef", localReference)]),
    ("gcePersistentDisk", .record [("pdName", .text)]
      [("fsType", .text), ("partition", int32), ("readOnly", .bool)]),
    ("photonPersistentDisk", .record [("pdID", .text)] [("fsType", .text)]),
    ("vsphereVolume", .record [("volumePath", .text)]
      [("fsType", .text), ("storagePolicyID", .text), ("storagePolicyName", .text)])]

def networkVolumes : List (String × Shape) :=
  [("cephfs", .record [("monitors", texts)]
      [("path", .text), ("readOnly", .bool), ("secretFile", .text), ("secretRef", localReference),
        ("user", .text)]),
    ("fc", loose [("fsType", .text), ("lun", int32), ("readOnly", .bool), ("targetWWNs", texts),
      ("wwids", texts)]),
    ("flexVolume", .record [("driver", .text)]
      [("fsType", .text), ("options", labels), ("readOnly", .bool),
        ("secretRef", localReference)]),
    ("flocker", loose [("datasetName", .text), ("datasetUUID", .text)]),
    ("glusterfs", .record [("endpoints", .text), ("path", .text)] [("readOnly", .bool)]),
    ("iscsi", .record [("iqn", .text), ("lun", int32), ("targetPortal", .text)]
      [("chapAuthDiscovery", .bool), ("chapAuthSession", .bool), ("fsType", .text),
        ("initiatorName", .text), ("iscsiInterface", .text), ("portals", texts),
        ("readOnly", .bool), ("secretRef", localReference)]),
    ("nfs", .record [("path", .text), ("server", .text)] [("readOnly", .bool)]),
    ("portworxVolume", .record [("volumeID", .text)] [("fsType", .text), ("readOnly", .bool)]),
    ("quobyte", .record [("registry", .text), ("volume", .text)]
      [("group", .text), ("readOnly", .bool), ("tenant", .text), ("user", .text)]),
    ("rbd", .record [("image", .text), ("monitors", texts)]
      [("fsType", .text), ("keyring", .text), ("pool", .text), ("readOnly", .bool),
        ("secretRef", localReference), ("user", .text)]),
    ("scaleIO", .record [("gateway", .text), ("secretRef", localReference), ("system", .text)]
      [("fsType", .text), ("protectionDomain", .text), ("readOnly", .bool), ("sslEnabled", .bool),
        ("storageMode", .text), ("storagePool", .text), ("volumeName", .text)]),
    ("storageos", loose [("fsType", .text), ("readOnly", .bool), ("secretRef", localReference),
      ("volumeName", .text), ("volumeNamespace", .text)])]

def volumeSources : List (String × Shape) := clusterVolumes ++ cloudVolumes ++ networkVolumes

end InfraOperator.Shape
