import RdmaManager.Common.Cpp
/-!
# Messages

The messages that clients, servers and the sequencer exchange, with the
fields that are read. A `repeated` field of sixteen entries is a vector:
every sender puts in sixteen.
-/

namespace RdmaManager

/-- `MessageErrors`. -/
inductive MessageErrors
  | noError
  | invalidMessage
  | memoryNotAvailable
  | memoryReleaseFailed
  | nodeIdNotFound
  deriving DecidableEq, Repr

def MessageErrors.code : MessageErrors → UInt32
  | noError => 0
  | invalidMessage => 1
  | memoryNotAvailable => 100
  | memoryReleaseFailed => 101
  | nodeIdNotFound => 200

/-- `MemoryResourceType::Enum`. -/
inductive MemoryResourceType
  | memoryResourceRequest
  | memoryResourceRelease
  deriving DecidableEq, Repr

def MemoryResourceType.code : MemoryResourceType → UInt32
  | memoryResourceRequest => 0
  | memoryResourceRelease => 1

structure MemoryResourceRequest where
  size : UInt64
  offset : UInt64
  type : UInt32
  deriving DecidableEq, Repr

structure MemoryResourceResponse where
  offset : UInt64
  return_ : UInt32
  deriving DecidableEq, Repr

/-- `RDMAConnRequest`. -/
structure RDMAConnRequest where
  buffer : UInt64
  rkey : UInt32
  qpNum : UInt32
  lid : UInt32
  gid : Vector UInt32 16
  psn : UInt32
  nodeid : UInt64
  deriving DecidableEq, Repr

/-- `RDMAConnResponse`. -/
structure RDMAConnResponse where
  buffer : UInt64
  rkey : UInt32
  qpNum : UInt32
  lid : UInt32
  psn : UInt32
  gid : Vector UInt32 16
  deriving DecidableEq, Repr

/-- `NodeType::Enum`. -/
inductive NodeType
  | server
  | client
  deriving DecidableEq, Repr

def NodeType.code : NodeType → UInt32
  | server => 0
  | client => 1

/-- `NodeIDRequest`. -/
structure NodeIDRequest where
  ip : String
  name : String
  nodeTypeEnum : UInt32
  deriving DecidableEq, Repr

/-- `NodeIDResponse`. -/
structure NodeIDResponse where
  nodeid : UInt64
  return_ : UInt32
  deriving DecidableEq, Repr

/-- `GetNodeIDForIpPortResponse`. -/
structure GetNodeIDForIpPortResponse where
  ip : String
  name : String
  nodeId : UInt64
  nodeTypeEnum : UInt32
  return_ : UInt32
  deriving DecidableEq, Repr

/-- `NodeIDStruct`. -/
structure NodeIDStruct where
  ip : String
  name : String
  nodeId : UInt64
  nodeTypeEnum : UInt32
  deriving DecidableEq, Repr

/-- `GetAllNodeIDsResponse`. -/
structure GetAllNodeIDsResponse where
  nodeidEntries : List NodeIDStruct
  return_ : UInt32
  deriving DecidableEq, Repr

/-- What a server or the sequencer can be sent. -/
inductive Request
  | rdmaConnRequest (connReq : RDMAConnRequest)
  | memoryResourceRequest (reqMsg : MemoryResourceRequest)
  | rdmaConnDisconnect (nodeid : UInt64)
  | nodeIDRequest (connReq : NodeIDRequest)
  | getNodeIDForIpPortRequest (ipPort : String)
  | getAllNodeIDsRequest (nodeId : UInt64)
  | unknown
  deriving DecidableEq, Repr

/-- What they can answer. A request that gets no answer leaves `Any` empty. -/
inductive Response
  | rdmaConnResponse (connResp : RDMAConnResponse)
  | memoryResourceResponse (respMsg : MemoryResourceResponse)
  | nodeIDResponse (connResp : NodeIDResponse)
  | getNodeIDForIpPortResponse (connResp : GetNodeIDForIpPortResponse)
  | getAllNodeIDsResponse (connResp : GetAllNodeIDsResponse)
  | errorMessage (return_ : UInt32)
  | empty
  deriving DecidableEq, Repr

end RdmaManager
