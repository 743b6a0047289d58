import Voltha.Kafka.Teardown
import Voltha.Kafka.Races
import Voltha.Kafka.Consume
import Voltha.Kafka.Isolation
import Voltha.Kafka.ConsumerCloses
import Voltha.Device.PortView
import Voltha.Device.Setup
import Voltha.Device.Queries
import Voltha.Device.Termination
import Voltha.Device.StoredPorts
