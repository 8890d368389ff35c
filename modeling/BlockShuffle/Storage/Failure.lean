/-!
# Storage failures

A storage call fails with a kind and a message. The kind is what the library decides on (retry,
treat as absent, give up); the message is only ever shown.

Seven kinds decide anything in the library: five that may pass, which `Retry` names, then absence,
and a read that meets the end too early. The others are kept all the same, because a failure is
passed on as it came: a storage call made through the library fails with the kind and the message
the storage gave, and a model with fewer kinds could not say so. Neither field is restricted. A
storage may fail with any kind in any call, also with one that makes no sense there, and the
statements about failing storages hold for these too.

The names are those reports give the kinds and are read back by `ofName?`; no decision looks at a
name. What an operating system calls the same failure is not said here but in `Storage/Disk`, next
to the calls that can meet it.
-/

set_option autoImplicit false

namespace BlockShuffle

/-- What went wrong, coarsely. -/
inductive IoKind where
  | notFound
  | permissionDenied
  | connectionRefused
  | connectionReset
  | hostUnreachable
  | networkUnreachable
  | connectionAborted
  | notConnected
  | addrInUse
  | addrNotAvailable
  | networkDown
  | brokenPipe
  | alreadyExists
  | wouldBlock
  | notADirectory
  | isADirectory
  | directoryNotEmpty
  | readOnlyFilesystem
  | filesystemLoop
  | staleNetworkFileHandle
  | invalidInput
  | invalidData
  | timedOut
  | writeZero
  | storageFull
  | notSeekable
  | quotaExceeded
  | fileTooLarge
  | resourceBusy
  | executableFileBusy
  | deadlock
  | crossesDevices
  | tooManyLinks
  | invalidFilename
  | argumentListTooLong
  | interrupted
  | unsupported
  | unexpectedEof
  | outOfMemory
  | inProgress
  | other
  | uncategorized
deriving DecidableEq, Repr

namespace IoKind

/-- Every kind with the name reports give it. -/
def names : List (IoKind × String) := [
  (.notFound, "NotFound"),
  (.permissionDenied, "PermissionDenied"),
  (.connectionRefused, "ConnectionRefused"),
  (.connectionReset, "ConnectionReset"),
  (.hostUnreachable, "HostUnreachable"),
  (.networkUnreachable, "NetworkUnreachable"),
  (.connectionAborted, "ConnectionAborted"),
  (.notConnected, "NotConnected"),
  (.addrInUse, "AddrInUse"),
  (.addrNotAvailable, "AddrNotAvailable"),
  (.networkDown, "NetworkDown"),
  (.brokenPipe, "BrokenPipe"),
  (.alreadyExists, "AlreadyExists"),
  (.wouldBlock, "WouldBlock"),
  (.notADirectory, "NotADirectory"),
  (.isADirectory, "IsADirectory"),
  (.directoryNotEmpty, "DirectoryNotEmpty"),
  (.readOnlyFilesystem, "ReadOnlyFilesystem"),
  (.filesystemLoop, "FilesystemLoop"),
  (.staleNetworkFileHandle, "StaleNetworkFileHandle"),
  (.invalidInput, "InvalidInput"),
  (.invalidData, "InvalidData"),
  (.timedOut, "TimedOut"),
  (.writeZero, "WriteZero"),
  (.storageFull, "StorageFull"),
  (.notSeekable, "NotSeekable"),
  (.quotaExceeded, "QuotaExceeded"),
  (.fileTooLarge, "FileTooLarge"),
  (.resourceBusy, "ResourceBusy"),
  (.executableFileBusy, "ExecutableFileBusy"),
  (.deadlock, "Deadlock"),
  (.crossesDevices, "CrossesDevices"),
  (.tooManyLinks, "TooManyLinks"),
  (.invalidFilename, "InvalidFilename"),
  (.argumentListTooLong, "ArgumentListTooLong"),
  (.interrupted, "Interrupted"),
  (.unsupported, "Unsupported"),
  (.unexpectedEof, "UnexpectedEof"),
  (.outOfMemory, "OutOfMemory"),
  (.inProgress, "InProgress"),
  (.other, "Other"),
  (.uncategorized, "Uncategorized")]

/-- The name reports give a kind. -/
def name (kind : IoKind) : String := (names.lookup kind).getD ""

/-- The kind of a name. -/
def ofName? (name : String) : Option IoKind :=
  (names.find? fun entry => entry.2 == name).map (·.1)

end IoKind

/-- A failed storage call. -/
structure IoError where
  kind : IoKind
  message : String
deriving DecidableEq, Repr

end BlockShuffle
