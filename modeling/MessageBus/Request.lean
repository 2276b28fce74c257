import MessageBus.Failure

/-!
# Requests

What the bus asks of the two services, the queue service SQS and the topic service SNS, and what they
reply. The arguments of a request are dynamic where they come from a destination or a message that a
caller may have overwritten.
-/

namespace MessageBus

/-- The two services. -/
inductive ServiceName where
  | sqs
  | sns
deriving DecidableEq

def ServiceName.text : ServiceName → Text
  | .sqs => "sqs"
  | .sns => "sns"

/-- A request to a service. -/
inductive Request where
  | createQueue (name : Value)
  | listQueues (start : Option Value)
  | deleteQueue (url : Value)
  | sendMessage (url : Value) (body : Text)
  | receiveMessage (url : Value) (wait : Value)
  | deleteMessage (url handle : Value)
  | changeVisibility (url handle : Value)
  | createTopic (name : Value)
  | publish (arn : Value) (message : Text)

namespace Request

def service : Request → ServiceName
  | .createTopic _ | .publish _ _ => .sns
  | _ => .sqs

def method : Request → Text
  | .createQueue _ => "create_queue"
  | .listQueues _ => "list_queues"
  | .deleteQueue _ => "delete_queue"
  | .sendMessage _ _ => "send_message"
  | .receiveMessage _ _ => "receive_message"
  | .deleteMessage _ _ => "delete_message"
  | .changeVisibility _ _ => "change_message_visibility"
  | .createTopic _ => "create_topic"
  | .publish _ _ => "publish"

/-- The arguments by name. A receive call takes one message at most, and `null` stands for no wait
time of its own. -/
def arguments : Request → List (Text × Value)
  | .createQueue name => [("QueueName", name)]
  | .listQueues none => []
  | .listQueues (some start) => [("QueueNamePrefix", start)]
  | .deleteQueue url => [("QueueUrl", url)]
  | .sendMessage url body => [("QueueUrl", url), ("MessageBody", .text body)]
  | .receiveMessage url .null => [("QueueUrl", url), ("MaxNumberOfMessages", .int 1)]
  | .receiveMessage url wait =>
    [("QueueUrl", url), ("MaxNumberOfMessages", .int 1), ("WaitTimeSeconds", wait)]
  | .deleteMessage url handle => [("QueueUrl", url), ("ReceiptHandle", handle)]
  | .changeVisibility url handle =>
    [("QueueUrl", url), ("ReceiptHandle", handle), ("VisibilityTimeout", .int 0)]
  | .createTopic name => [("Name", name)]
  | .publish arn message => [("TopicArn", arn), ("Message", .text message)]

end Request

/-- The reply to a request: how many milliseconds it takes, whether the connection is started or stopped
while it is under way, and the answer or the failure. -/
structure Reply where
  takes : Rat
  flip : Option Bool
  outcome : Except Failure Value

/-- A state from which a service replies. -/
class Service (σ : Type) where
  answer : Request → σ → Reply × σ

/-- What a client needs to reach a service, `null` where the surroundings decide. -/
structure ClientOptions where
  accessKey : Value
  secret : Value
  region : Value
  endpoint : Value

namespace ClientOptions

def arguments (o : ClientOptions) : List (Text × Value) :=
  [("aws_access_key_id", o.accessKey), ("aws_secret_access_key", o.secret), ("region_name", o.region),
    ("endpoint_url", o.endpoint)]

end ClientOptions

end MessageBus
