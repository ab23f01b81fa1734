import VllmMlu.Library.Dict

/-! The shared storage connector: which folder a prompt's KV is stored in, looked
up in and loaded from. -/
namespace VllmMlu.Connector

open Library

/-- An `int64` token id. -/
abbrev TokenId := BitVec 64

abbrev ReqId := Nat

abbrev Byte := BitVec 8

/-- The digest has no collisions, so a folder is named by the bytes that are digested. -/
abbrev Folder := List Byte

def alignToBlockSize (numTokens : Int) (blockSize : Nat) : Int :=
  (numTokens - 1) / blockSize * blockSize

/-- `xs[:stop]`. -/
def upTo {α : Type} (xs : List α) (stop : Int) : List α :=
  xs.take (if stop < 0 then xs.length + stop else stop).toNat

/-- The little-endian bytes of one token. -/
def tokenBytes (token : TokenId) : List Byte :=
  (List.range 8).map fun i => token.extractLsb' (8 * i) 8

/-- `token_ids.numpy().tobytes()`. -/
def toBytes (tokenIds : List TokenId) : List Byte :=
  tokenIds.flatMap tokenBytes

def generateFoldername (tokenIds : List TokenId) (mmHashes : List String) : Folder :=
  if mmHashes.isEmpty then
    toBytes tokenIds
  else
    toBytes tokenIds ++ ("-".intercalate mmHashes).toUTF8.toList.map UInt8.toBitVec

structure ReqMeta where
  tokenIds : List TokenId
  slotMapping : List Nat
  isStore : Bool
  mmHashes : List String
  /-- Not in the source: the prompt that the entry was made for. -/
  promptTokenIds : List TokenId
deriving DecidableEq, Repr

namespace ReqMeta

/-- The slots of the blocks, one block after another. -/
def slots (blockIds : List Nat) (blockSize : Nat) : List Nat :=
  blockIds.flatMap fun blockId => (List.range blockSize).map (· + blockId * blockSize)

def makeMeta (promptTokenIds tokenIds : List TokenId) (blockIds : List Nat) (blockSize : Nat)
    (isStore : Bool) (mmHashes : List String) : ReqMeta :=
  let validNumTokens := alignToBlockSize tokenIds.length blockSize
  { tokenIds := upTo tokenIds validNumTokens
    slotMapping := upTo (slots blockIds blockSize) validNumTokens
    isStore
    mmHashes
    promptTokenIds }

/-- The folder that the worker reads or writes. -/
def folder (entry : ReqMeta) : Folder :=
  generateFoldername entry.tokenIds entry.mmHashes

end ReqMeta

structure Request where
  requestId : ReqId
  /-- Empty where the request has none. -/
  promptTokenIds : List TokenId
  outputTokenIds : List TokenId
  mmHashes : List String
deriving DecidableEq, Repr

def Request.allTokenIds (request : Request) : List TokenId :=
  request.promptTokenIds ++ request.outputTokenIds

/-- The folders that exist, each with what its files were saved for. -/
abbrev Storage := Dict Folder ReqMeta

/-- The folder whose existence is checked for a prompt. -/
def checkedFolder (blockSize : Nat) (promptTokenIds : List TokenId) (mmHashes : List String) :
    Folder :=
  generateFoldername
    (upTo promptTokenIds (alignToBlockSize (promptTokenIds.length - 1) blockSize)) mmHashes

def foundMatchForPrompt (blockSize : Nat) (storage : Storage) (promptTokenIds : List TokenId)
    (mmHashes : List String) : Bool :=
  decide (checkedFolder blockSize promptTokenIds mmHashes ∈ storage.keys)

def getNumNewMatchedTokens (blockSize : Nat) (storage : Storage) (request : Request)
    (numComputedTokens : Int) : Int × Bool :=
  if foundMatchForPrompt blockSize storage request.promptTokenIds request.mmHashes then
    (alignToBlockSize (request.promptTokenIds.length - 1) blockSize - numComputedTokens, false)
  else
    (0, false)

/-- `self._requests_need_load`. -/
abbrev NeedLoad := Dict ReqId Request

def updateStateAfterAlloc (needLoad : NeedLoad) (request : Request) (numExternalTokens : Int) :
    NeedLoad :=
  if 0 < numExternalTokens then needLoad.set request.requestId request else needLoad

structure NewRequestData where
  reqId : ReqId
  promptTokenIds : List TokenId
  mmHashes : List String
  /-- `block_ids[0]`. -/
  blockIds : List Nat
deriving DecidableEq, Repr

structure CachedRequestData where
  reqId : ReqId
  resumed : Bool
  numComputedTokens : Int
  numScheduledTokens : Int
  newBlockIds : Option (List Nat)
deriving DecidableEq, Repr

structure SchedulerOutput where
  scheduledNewReqs : List NewRequestData
  scheduledCachedReqs : List CachedRequestData
deriving DecidableEq, Repr

inductive ConnectorError where
  | assertionError
  /-- A file to load does not exist. -/
  | fileNotFound
  /-- No batch is in flight. -/
  | nothingToExecute
deriving DecidableEq, Repr

/-- The entry of a new request, if it gets one: a load, or a store where no match
is found. -/
def newRequestMeta (blockSize : Nat) (storage : Storage) (needLoad : NeedLoad)
    (newReq : NewRequestData) : Option ReqMeta :=
  let entry (isStore : Bool) := ReqMeta.makeMeta newReq.promptTokenIds newReq.promptTokenIds
    newReq.blockIds blockSize isStore newReq.mmHashes
  if newReq.reqId ∈ needLoad.keys then
    some (entry false)
  else if foundMatchForPrompt blockSize storage newReq.promptTokenIds newReq.mmHashes then
    none
  else
    some (entry true)

/-- The entry of a resumed request that is to be loaded. -/
def cachedRequestMeta (blockSize : Nat) (needLoad : NeedLoad) (cached : CachedRequestData) :
    Except ConnectorError (Option ReqMeta) :=
  match cached.resumed, needLoad.get? cached.reqId with
  | true, some request => do
      let totalTokens := cached.numComputedTokens + cached.numScheduledTokens
      match cached.newBlockIds with
      | none => throw .assertionError
      | some blockIds =>
          return some (ReqMeta.makeMeta request.promptTokenIds
            (upTo request.allTokenIds totalTokens) blockIds blockSize false request.mmHashes)
  | _, _ => return none

/-- Where it returns, `_requests_need_load` is cleared. -/
def buildConnectorMeta (blockSize : Nat) (storage : Storage) (needLoad : NeedLoad)
    (output : SchedulerOutput) : Except ConnectorError (List ReqMeta) := do
  let newMetas := output.scheduledNewReqs.filterMap (newRequestMeta blockSize storage needLoad)
  let cachedMetas ← output.scheduledCachedReqs.mapM (cachedRequestMeta blockSize needLoad)
  let requests := newMetas ++ cachedMetas.filterMap id
  if (requests.filter fun entry => !entry.isStore).length = needLoad.keys.length then
    return requests
  else
    throw .assertionError

/-- Every load needs its files. -/
def startLoadKv (storage : Storage) (requests : List ReqMeta) : Except ConnectorError Unit :=
  if requests.all fun entry => entry.isStore || decide (entry.folder ∈ storage.keys) then
    return ()
  else
    throw .fileNotFound

/-- Every store writes its files, over those of an earlier store into the folder. -/
def saveKv (storage : Storage) (requests : List ReqMeta) : Storage :=
  requests.foldl (fun storage entry =>
    if entry.isStore then storage.set entry.folder entry else storage) storage

end VllmMlu.Connector
