/-!
The ways a step of the program can fail: one name for each assertion of the
source that a modelled function checks, and the memory faults (a pointer to a
destroyed object, a null pointer) that the language leaves undefined. A fault
ends the run in which it happens.
-/
namespace TinyMuduo

inductive Fault
  -- TimerQueue
  | timerSetSizes
  | lowerBoundNotLater
  | activeTimerErase
  | timerListErase
  | timerListInsert
  | activeTimerInsert
  -- Poller::updateChannel
  | updateFdMapped
  | updateFdNotMapped
  | updateOtherMapped
  | updateIndex
  | updatePollFd
  -- Poller::removeChannel
  | removeFdNotMapped
  | removeOtherMapped
  | removeWithInterest
  | removeIndex
  | removePollFd
  | removeEraseCount
  -- Poller::fillActiveChannels
  | activeNotMapped
  | activeOtherFd
  -- EPoller::updateChannel and EPoller::update
  | epollFdMapped
  | epollFdNotMapped
  | epollOtherMapped
  | epollIndex
  | epollCtl
  -- EPoller::removeChannel
  | epollRemoveFdNotMapped
  | epollRemoveOtherMapped
  | epollRemoveWithInterest
  | epollRemoveIndex
  | epollRemoveEraseCount
  -- EPoller::fillActiveChannels
  | epollNumEvents
  | epollActiveNotMapped
  | epollActiveOther
  -- EventLoop
  | alreadyLooping
  | destroyedWhileLooping
  | notInLoopThread
  -- TcpConnection
  | establishState
  | closeState
  | destroyState
  -- TcpServer and TcpClient
  | connectionMapErase
  | clientConnection
  | threadNumNegative
  | poolStarted
  -- Connector
  | startState
  | channelInUse
  | writeState
  | errorState
  | destroyedConnecting
  -- Buffer
  | bufferConstructed
  | retrieveLength
  | retrieveUntilBegin
  | retrieveUntilEnd
  | writableBytes
  | prependLength
  | cheapPrepend
  | movedBytes
  | vectorLength
  -- Logger::Impl, T and Fmt
  | timeLength
  | microsecondsLength
  | tidLength
  | knownLength
  | formatLength
  -- TimeZone
  | zoneData
  | transitionBegin
  -- the language leaves both undefined
  | intOverflow
  | arrayLength
  -- memory
  | useAfterFree
  | nullPointer
  | outOfBounds
  deriving DecidableEq, Repr

def Fault.ofUpdate : Fault → Bool
  | .updateFdMapped | .updateFdNotMapped | .updateOtherMapped | .updateIndex
  | .updatePollFd => true
  | _ => false

def Fault.ofRemove : Fault → Bool
  | .removeFdNotMapped | .removeOtherMapped | .removeWithInterest | .removeIndex
  | .removePollFd | .removeEraseCount | .nullPointer => true
  | _ => false

def Fault.ofLogging : Fault → Bool
  | .timeLength | .microsecondsLength | .tidLength | .knownLength | .formatLength => true
  | _ => false

end TinyMuduo
