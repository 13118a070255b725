import Scaler.Collections.Base64
import Scaler.Collections.Dict
import Scaler.Protocol

/-! The payloads and results of batch jobs: what `AWSBatchExecutionBackend` and
`OCIHPCExecutionBackend` hand to a job, what `batch_job_runner.py` and
`container_instance_job_runner.py` make of it, and the way of the result back. -/

namespace Scaler

open Collections Base64

namespace Adapter

abbrev Text := List Char

/-- `gzip`, whose output begins with its magic number. -/
structure Gzip where
  compress : Bytes → Bytes
  decompress : Bytes → Option Bytes
  decompress_compress : ∀ data, decompress (compress data) = some data
  magic : ∀ data, [0x1f, 0x8b] <+: compress data

/-- What `cloudpickle` dumps is never taken for something compressed. -/
def Pickled (data : Bytes) : Prop := ¬[0x1f, 0x8b] <+: data

/-- Objects under the name of their bucket and their key. -/
abbrev ObjectStore := Dict (Text × Text) Bytes

/-- `value.lower() == "none"`. -/
def isNone (value : Text) : Bool := value.map Char.toLower = "none".toList

def hexDigit (n : Nat) : Char := "0123456789abcdef".toList.getD n '0'

/-- `bytes.hex()`. -/
def hex (data : Bytes) : Text := data.flatMap fun b => [hexDigit (b.toNat / 16), hexDigit (b.toNat % 16)]

/-- `str(n)`. -/
def decimal (n : Nat) : Text := Nat.toDigits 10 n

/-- `str.replace`: what follows a match is not matched again before its end. -/
def replaceFrom (pattern replacement : Text) : Nat → Text → Text
  | _, [] => []
  | 0, c :: rest =>
    if pattern.isPrefixOf (c :: rest) then replacement ++ replaceFrom pattern replacement (pattern.length - 1) rest
    else c :: replaceFrom pattern replacement 0 rest
  | skip + 1, _ :: rest => replaceFrom pattern replacement skip rest

def replace (pattern replacement text : Text) : Text := replaceFrom pattern replacement 0 text

/-- Both runners and both backends compress what has more than 4 KiB. -/
def compressionThreshold : Nat := 4 * 1024

def maxInlineSize : Nat := 28 * 1024

variable (gzip : Gzip)

def compressLarge (data : Bytes) : Bytes := if compressionThreshold < data.length then gzip.compress data else data

/-- The backends look for the magic number. -/
def decodeResult (data : Bytes) : Option Bytes :=
  if [0x1f, 0x8b].isPrefixOf data then gzip.decompress data else some data

namespace AWSBatch

structure Config where
  s3Bucket : Text
  s3Prefix : Text

/-- The parameters of a submitted job. -/
structure JobParameters where
  taskId : Text
  payload : Text
  compressed : Text
  s3Bucket : Text
  s3Prefix : Text
  s3Key : Text
  deriving DecidableEq

variable (config : Config)

def inputKey (taskId : Bytes) (compressed : Bool) : Text :=
  config.s3Prefix ++ "/inputs/".toList ++ hex taskId ++ ".pkl".toList ++ if compressed then ".gz".toList else []

def submitSingleBatchJob (taskId payload : Bytes) (s3 : ObjectStore) : JobParameters × ObjectStore :=
  let compressed : Bool := compressionThreshold < payload.length
  let body := compressLarge gzip payload
  let flag := if compressed then "1".toList else "0".toList
  if body.length ≤ maxInlineSize then
    (⟨hex taskId, b64encode body, flag, config.s3Bucket, config.s3Prefix, "none".toList⟩, s3)
  else
    (⟨hex taskId, [], flag, config.s3Bucket, config.s3Prefix, inputKey config taskId compressed⟩,
      s3.set (config.s3Bucket, inputKey config taskId compressed) body)

def s3PrefixArray (arrayId : Text) : Text := config.s3Prefix ++ "/array/".toList ++ arrayId

def childKey (arrayId : Text) (index : Nat) : Text :=
  s3PrefixArray config arrayId ++ "/".toList ++ decimal index ++ ".pkl".toList

/-- The loop over the tasks of an array job. -/
def putPayloads (arrayId : Text) : Nat → List Bytes → ObjectStore → ObjectStore
  | _, [], s3 => s3
  | index, payload :: payloads, s3 =>
    putPayloads arrayId (index + 1) payloads
      (s3.set (config.s3Bucket, childKey config arrayId index) (compressLarge gzip payload))

def submitArrayJob (arrayId : Text) (payloads : List Bytes) (s3 : ObjectStore) : JobParameters × ObjectStore :=
  (⟨"array".toList, "none".toList, "0".toList, config.s3Bucket, config.s3Prefix,
      s3PrefixArray config arrayId ++ "/ARRAY_INDEX.pkl".toList⟩,
    putPayloads gzip config arrayId 0 payloads s3)

/-- The arguments of a runner. -/
structure JobArguments where
  taskId : Text
  s3Bucket : Option Text
  s3Prefix : Text
  compressed : Text
  payload : Option Text
  s3Key : Option Text

def noneTo (fallback : Option Text) (value : Text) : Option Text := if isNone value then fallback else some value

/-- The command line has the parameters as they are, where none looks like an option. -/
def parseArgs (parameters : JobParameters) : JobArguments where
  taskId := (noneTo (some "unknown".toList) parameters.taskId).getD []
  s3Bucket := noneTo none parameters.s3Bucket
  s3Prefix := (noneTo (some "scaler-tasks".toList) parameters.s3Prefix).getD []
  compressed := parameters.compressed
  payload := noneTo none parameters.payload
  s3Key := noneTo none parameters.s3Key

/-- `AWS_BATCH_JOB_ARRAY_INDEX` stands for the placeholder in the key of an array job. -/
def resolveKey (arrayIndex : Option Text) (s3Key : Text) : Text :=
  match arrayIndex with
  | none => s3Key
  | some index => replace "ARRAY_INDEX".toList index s3Key

/-- The payload, and the store without the input it was read from. -/
def getPayload (s3 : ObjectStore) (arguments : JobArguments) (arrayIndex : Option Text) :
    Option (Bytes × ObjectStore) :=
  let compressed : Bool := arguments.compressed = "1".toList
  match arguments.payload with
  | some (c :: text) =>
    (b64decode (c :: text)).bind fun payload =>
      (if compressed then gzip.decompress payload else some payload).map fun payload => (payload, s3)
  | _ =>
    match arguments.s3Bucket, arguments.s3Key with
    | some (b :: bucket), some (k :: key) =>
      let key := resolveKey arrayIndex (k :: key)
      (s3.get? (b :: bucket, key)).bind fun payload =>
        (if compressed || ".gz".toList.isSuffixOf key then gzip.decompress payload else some payload).map
          fun payload => (payload, s3.erase (b :: bucket, key))
    | _, _ => none

def resultKey (s3Prefix jobId : Text) : Text := s3Prefix ++ "/results/".toList ++ jobId ++ ".pkl".toList

def storeResult (s3 : ObjectStore) (result : Bytes) (s3Bucket s3Prefix jobId : Text) : ObjectStore :=
  let key := resultKey s3Prefix jobId ++ if compressionThreshold < result.length then ".gz".toList else []
  s3.set (s3Bucket, key) (compressLarge gzip result)

/-- What the runner does with the result, if it has a bucket. -/
def finish (s3 : ObjectStore) (arguments : JobArguments) (result : Bytes) (jobId : Text) : Option ObjectStore :=
  arguments.s3Bucket.map fun bucket => storeResult gzip s3 result bucket arguments.s3Prefix jobId

/-- The first of the keys that has an object. -/
def fetch (s3 : ObjectStore) (keys : List Text) : Option Bytes :=
  (keys.findSome? fun key => s3.get? (config.s3Bucket, key)).bind (decodeResult gzip)

/-- What `_monitor_batch_job` makes of a job that succeeded. -/
def monitorBatchJob (s3 : ObjectStore) (jobId : Text) : Option Bytes :=
  fetch gzip config s3 [resultKey config.s3Prefix jobId, resultKey config.s3Prefix jobId ++ ".gz".toList]

/-- The identifier of a child is that of its array job and its index. -/
def childId (parentJobId : Text) (index : Nat) : Text := parentJobId ++ ":".toList ++ decimal index

/-- The keys are tried twice, the second time with the identifier that the service reports. -/
def monitorArrayJob (s3 : ObjectStore) (parentJobId : Text) (index : Nat) : Option Bytes :=
  let key := resultKey config.s3Prefix (childId parentJobId index)
  fetch gzip config s3 [key, key ++ ".gz".toList, key, key ++ ".gz".toList]

end AWSBatch

namespace OCIHPC

structure Config where
  objectStorageNamespace : Text
  objectStorageBucket : Text
  objectStoragePrefix : Text

/-- The environment of a container. -/
structure Environment where
  taskId : Text
  ociNamespace : Text
  ociBucket : Text
  ociPrefix : Text
  ociObjectKey : Text
  payloadB64 : Text
  compressed : Text

variable (config : Config)

def inputKey (taskId : Bytes) (compressed : Bool) : Text :=
  config.objectStoragePrefix ++ "/inputs/".toList ++ hex taskId ++
    if compressed then ".pkl.gz".toList else ".pkl".toList

def createContainerInstance (taskId payload : Bytes) (store : ObjectStore) : Environment × ObjectStore :=
  let compressed : Bool := compressionThreshold < payload.length
  let body := compressLarge gzip payload
  let flag := if compressed then "1".toList else "0".toList
  if body.length ≤ maxInlineSize then
    (⟨hex taskId, config.objectStorageNamespace, config.objectStorageBucket, config.objectStoragePrefix,
        "none".toList, b64encode body, flag⟩, store)
  else
    (⟨hex taskId, config.objectStorageNamespace, config.objectStorageBucket, config.objectStoragePrefix,
        inputKey config taskId compressed, [], flag⟩,
      store.set (config.objectStorageBucket, inputKey config taskId compressed) body)

def readEnv (value : Text) : Option Text := if isNone value then none else some value

/-- `read_env(key) or fallback`. -/
def readEnvOr (fallback value : Text) : Text :=
  match readEnv value with
  | some (c :: text) => c :: text
  | _ => fallback

def getPayload (store : ObjectStore) (environment : Environment) : Option (Bytes × ObjectStore) :=
  let compressed : Bool := readEnvOr "0".toList environment.compressed = "1".toList
  match readEnv environment.ociNamespace, readEnv environment.ociBucket with
  | some ociNamespace, some bucket =>
    match readEnv environment.payloadB64 with
    | some (c :: text) =>
      (b64decode (c :: text)).bind fun payload =>
        (if compressed then gzip.decompress payload else some payload).map fun payload => (payload, store)
    | _ =>
      match ociNamespace, bucket, readEnv environment.ociObjectKey with
      | _ :: _, b :: bucket, some (k :: key) =>
        (store.get? (b :: bucket, k :: key)).bind fun payload =>
          (if compressed || ".gz".toList.isSuffixOf (k :: key) then gzip.decompress payload else some payload).map
            fun payload => (payload, store.erase (b :: bucket, k :: key))
      | _, _, _ => none
  | _, _ => none

def resultKey (keyPrefix taskId : Text) : Text := keyPrefix ++ "/results/".toList ++ taskId ++ ".pkl".toList

/-- The result goes under the task, compressed or not. -/
def storeResult (store : ObjectStore) (environment : Environment) (result : Bytes) : Option ObjectStore :=
  match readEnv environment.ociNamespace, readEnv environment.ociBucket with
  | some _, some bucket =>
    some (store.set
      (bucket, resultKey (readEnvOr "scaler-tasks".toList environment.ociPrefix)
        (readEnvOr "unknown".toList environment.taskId)) (compressLarge gzip result))
  | _, _ => none

/-- What `_monitor_container_instance` makes of a container that has ended. -/
def monitorContainerInstance (store : ObjectStore) (taskId : Bytes) : Option Bytes :=
  (store.get? (config.objectStorageBucket, resultKey config.objectStoragePrefix (hex taskId))).bind (decodeResult gzip)

end OCIHPC

end Adapter

end Scaler
