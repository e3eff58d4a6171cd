/-
The operations of the client as data: each with its method and the parameters it sends, in the
words of the A2A protocol. The client makes no other calls.
-/
import A2ad.Client.Stream

namespace A2ad.Client

open Bytes Json

/-- A call with one response. -/
inductive Ask where
  | sendMessage (text taskId contextId messageId : Str)
  | getTask (taskId : Str)
  | listTasks (f : ListTasksFilter)
  | cancelTask (taskId : Str)
  | createPushConfig (c : PushNotificationConfig)
  | getPushConfig (taskId id : Str)
  | listPushConfigs (taskId : Str) (pageSize : Int) (pageToken : Str)
  | deletePushConfig (taskId id : Str)
  | extendedCard

def Ask.method : Ask → Method
  | .sendMessage .. => .sendMessage
  | .getTask _ => .getTask
  | .listTasks _ => .listTasks
  | .cancelTask _ => .cancelTask
  | .createPushConfig _ => .createPushConfig
  | .getPushConfig .. => .getPushConfig
  | .listPushConfigs .. => .listPushConfigs
  | .deletePushConfig .. => .deletePushConfig
  | .extendedCard => .extendedCard

def Ask.params : Ask → J
  | .sendMessage text taskId contextId messageId => sendParams text taskId contextId messageId
  | .getTask taskId => idParams taskId
  | .listTasks f => listParams f
  | .cancelTask taskId => idParams taskId
  | .createPushConfig c => pushParams c
  | .getPushConfig taskId id => pushIdParams taskId id
  | .listPushConfigs taskId pageSize pageToken => pushPageParams taskId pageSize pageToken
  | .deletePushConfig taskId id => pushIdParams taskId id
  | .extendedCard => .obj []

/-- A call that opens a stream. -/
inductive StreamAsk where
  | subscribeToTask (taskId : Str)
  | sendStreamingMessage (text taskId contextId messageId : Str)

def StreamAsk.method : StreamAsk → StreamMethod
  | .subscribeToTask _ => .subscribeToTask
  | .sendStreamingMessage .. => .sendStreamingMessage

def StreamAsk.params : StreamAsk → J
  | .subscribeToTask taskId => idParams taskId
  | .sendStreamingMessage text taskId contextId messageId => streamParams text taskId contextId messageId

def Ask.call (E : Env) (endpoint : Str) (auth : AuthSpec) (ask : Ask) : M A2AResult :=
  rpcCall E endpoint auth ask.method ask.params

end A2ad.Client
